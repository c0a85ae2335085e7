import JsmjServer.Sng.RoundMgr

set_option relaxedAutoImplicit false
set_option autoImplicit false

/-!
# The scores of a round

`RoundMgr:updateScore` adds the scores of a game to those of the players and keeps the ones above
the cut when the room is to end. The loop that adds the scores stops at the first player who falls
below the cut, and the one that keeps players reads the scores of all.

## Main definitions

* `Sng.RoundMgr.Updated` — the scores are added, and the right players are kept.
* `Sng.RoundMgr.NoneLost` — the condition under which they are.

## Main results

* `Sng.updateScore_iff` — the scores are added exactly under that condition.
* `Sng.winner_not_paid` — a game after which they are not.

## Design

Which players the first loop reaches is a list of its own (`reached`), read off the scores before
the call; the loop is compared with it once (`addScores_spec`).
-/

namespace Sng

namespace RoundMgr

variable (m : RoundMgr) (scoreMap : ℕ → Option ℤ)

/-- The player falls below the cut with the score of the map. -/
def Falls (ref : ℕ) : Prop :=
  ∃ amount ∈ m.named scoreMap ref, m.score ref + amount < m.cutScore

instance (ref : ℕ) : Decidable (m.Falls scoreMap ref) :=
  inferInstanceAs (Decidable (∃ amount ∈ m.named scoreMap ref, _))

/-- The room is to end: it has had its games, or a player falls below the cut. -/
def EndsGame (roomid : ℕ) : Prop :=
  ∃ roomInfo ∈ m.getRoom roomid, m.roundConfig.endCount ≤ roomInfo.roundCount ∨
    ∃ ref ∈ m.playingPlayers, m.Falls scoreMap ref

/-- What a report of scores is to do, with the manager after it and whether the game is to end:
the scores of the map are added and no other changes, and when the game is to end, the players of
the map who are not below the cut are kept once each and the others of the map are not. -/
structure Updated (result : RoundMgr × Bool) : Prop where
  added : ∀ ref ∈ m.playingPlayers, ∀ amount ∈ m.named scoreMap ref,
    result.1.score ref = m.score ref + amount
  others : ∀ ref, (ref ∈ m.playingPlayers → m.named scoreMap ref = none) →
    result.1.items ref = m.items ref
  kept : result.2 = true → ∀ ref ∈ m.playingPlayers, (m.named scoreMap ref).isSome →
    result.1.reservePlayer.count ref = if m.cutScore ≤ result.1.score ref then 1 else 0

/-- No score gets lost: the room is known, of the players of the map only the last one with a
score other than zero may fall below the cut, and when the game is to end, none of them has been
kept before. -/
structure NoneLost (roomid : ℕ) : Prop where
  room : m.getRoom roomid = none →
    ∀ ref ∈ m.playingPlayers, ∀ amount ∈ m.named scoreMap ref, amount = 0
  order : (m.getRoom roomid).isSome → m.playingPlayers.Pairwise fun p q =>
    m.Falls scoreMap p → ∀ amount ∈ m.named scoreMap q, amount = 0
  fresh : m.EndsGame scoreMap roomid →
    ∀ ref ∈ m.playingPlayers, (m.named scoreMap ref).isSome → ref ∉ m.reservePlayer

/-! ### The first loop -/

/-- The players up to the first one who falls below the cut. -/
def reached : List ℕ → List ℕ
  | [] => []
  | ref :: rest => if m.Falls scoreMap ref then [ref] else ref :: reached rest

variable {m scoreMap} {m' : RoundMgr} {l : List ℕ} {ref : ℕ}

lemma mem_of_mem_reached (h : ref ∈ m.reached scoreMap l) : ref ∈ l := by
  induction l with
  | nil => exact h
  | cons p l ih =>
    rw [reached] at h
    split_ifs at h
    · rw [List.mem_singleton.mp h]
      exact List.mem_cons_self
    · obtain rfl | h := List.mem_cons.mp h
      · exact List.mem_cons_self
      · exact List.mem_cons_of_mem _ (ih h)

variable (scoreMap) in
lemma falls_congr (hitem : m'.items ref = m.items ref) (hcut : m'.cutScore = m.cutScore) :
    m'.Falls scoreMap ref ↔ m.Falls scoreMap ref := by
  simp only [Falls, named, score, hitem, hcut]

variable (scoreMap) in
lemma reached_congr (hitem : ∀ ref ∈ l, m'.items ref = m.items ref)
    (hcut : m'.cutScore = m.cutScore) : m'.reached scoreMap l = m.reached scoreMap l := by
  induction l with
  | nil => rfl
  | cons p l ih =>
    have hp := falls_congr scoreMap (hitem p List.mem_cons_self) hcut
    simp only [reached, hp, ih fun ref href => hitem ref (List.mem_cons_of_mem _ href)]

/-- The players after one who falls below the cut are not reached. -/
lemma pairwise_falls_iff (hnodup : l.Nodup) :
    (l.Pairwise fun p q => m.Falls scoreMap p → ∀ amount ∈ m.named scoreMap q, amount = 0) ↔
      ∀ ref ∈ l, ref ∉ m.reached scoreMap l → ∀ amount ∈ m.named scoreMap ref, amount = 0 := by
  induction l with
  | nil => simp
  | cons p l ih =>
    obtain ⟨hp, hnodup⟩ := List.nodup_cons.mp hnodup
    rw [List.pairwise_cons]
    by_cases hfalls : m.Falls scoreMap p
    · have hreached : m.reached scoreMap (p :: l) = [p] := if_pos hfalls
      simp only [hreached, List.mem_singleton, hfalls, true_implies]
      constructor
      · rintro ⟨hall, -⟩ ref href hne
        exact hall ref ((List.mem_cons.mp href).resolve_left hne)
      · intro hall
        have hrest : ∀ ref ∈ l, ∀ amount ∈ m.named scoreMap ref, amount = 0 :=
          fun ref href => hall ref (List.mem_cons_of_mem _ href) fun heq => hp (heq ▸ href)
        exact ⟨hrest, List.pairwise_of_forall_mem_list fun _ _ q hq _ => hrest q hq⟩
    · have hreached : m.reached scoreMap (p :: l) = p :: m.reached scoreMap l := if_neg hfalls
      simp only [hreached, hfalls, false_implies, implies_true, true_and, ih hnodup]
      constructor
      · intro hall ref href hnot
        rw [List.mem_cons, not_or] at hnot
        exact hall ref ((List.mem_cons.mp href).resolve_left hnot.1) hnot.2
      · intro hall ref href hnot
        refine hall ref (List.mem_cons_of_mem _ href) fun hmem => ?_
        obtain rfl | hmem := List.mem_cons.mp hmem
        · exact hp href
        · exact hnot hmem

/-- The item of a player whose score of the map is added. -/
def paid (m : RoundMgr) (scoreMap : ℕ → Option ℤ) (ref : ℕ) : PlayerItem :=
  { m.items ref with score := m.score ref + (m.named scoreMap ref).getD 0 }

variable (scoreMap) in
/-- **The loop that adds the scores**: those of the players that it reaches are added. It changes
nothing else but the rank list, and stops early when a player falls below the cut. -/
lemma addScores_spec (hnodup : l.Nodup) :
    (∀ ref, (addScores scoreMap l m).1.items ref =
        if ref ∈ m.reached scoreMap l then m.paid scoreMap ref else m.items ref) ∧
      ((addScores scoreMap l m).2 = true ↔ ∃ ref ∈ l, m.Falls scoreMap ref) ∧
      ∃ items rankList, (addScores scoreMap l m).1 =
        { m with items := items, rankList := rankList } := by
  induction l generalizing m with
  | nil => exact ⟨fun ref => by simp [addScores, reached], by simp [addScores], _, _, rfl⟩
  | cons p l ih =>
    obtain ⟨hp, hnodup⟩ := List.nodup_cons.mp hnodup
    rw [addScores]
    cases hnamed : m.named scoreMap p with
    | none =>
      have hfalls : ¬ m.Falls scoreMap p := by
        simp [Falls, hnamed]
      obtain ⟨hitems, hends, hframe⟩ := ih (m := m) hnodup
      refine ⟨fun ref => ?_, ?_, hframe⟩
      · have hreached : m.reached scoreMap (p :: l) = p :: m.reached scoreMap l := if_neg hfalls
        simp only [hitems, hreached, List.mem_cons]
        by_cases heq : ref = p
        · subst heq
          have hself : m.paid scoreMap ref = m.items ref := by
            simp [paid, hnamed, score]
          rw [hself, ite_self, ite_self]
        · simp only [heq, false_or]
      · rw [hends]
        simp [hfalls]
    | some amount =>
      dsimp only
      set m₁ := (m.setScore p (m.score p + amount)).refresh p with hm₁
      have hself : m₁.items p = m.paid scoreMap p := by
        simp [hm₁, refresh, setScore, paid, hnamed]
      have hother : ∀ ref, ref ≠ p → m₁.items ref = m.items ref := by
        intro ref hne
        simp [hm₁, refresh, setScore, hne]
      have hcut : m₁.cutScore = m.cutScore := rfl
      have hfalls : m₁.score p < m₁.cutScore ↔ m.Falls scoreMap p := by
        simp [score, hself, hcut, Falls, paid, hnamed]
      by_cases hlow : m₁.score p < m₁.cutScore
      · simp only [if_pos hlow, reached, if_pos (hfalls.mp hlow)]
        refine ⟨fun ref => ?_, ?_, _, _, rfl⟩
        · by_cases heq : ref = p
          · simp [heq, hself]
          · simp [heq, hother ref heq]
        · simp [hfalls.mp hlow]
      · simp only [if_neg hlow, reached, if_neg (hlow ∘ hfalls.mpr)]
        have hrest : ∀ ref ∈ l, m₁.items ref = m.items ref :=
          fun ref href => hother ref fun heq => hp (heq ▸ href)
        obtain ⟨hitems, hends, items, rankList, hframe⟩ := ih (m := m₁) hnodup
        refine ⟨fun ref => ?_, ?_, items, rankList, hframe⟩
        · simp only [hitems, reached_congr scoreMap hrest hcut, List.mem_cons]
          by_cases heq : ref = p
          · subst heq
            have hnot : ref ∉ m.reached scoreMap l := fun h => hp (mem_of_mem_reached h)
            rw [if_neg hnot, if_pos (.inl rfl), hself]
          · have hpaid : m₁.paid scoreMap ref = m.paid scoreMap ref := by
              simp [paid, score, named, hother ref heq]
            simp only [heq, false_or, hpaid, hother ref heq]
        · rw [hends]
          constructor
          · rintro ⟨ref, href, hrefs⟩
            have hrefs := (falls_congr scoreMap (hrest ref href) hcut).mp hrefs
            exact ⟨ref, List.mem_cons_of_mem _ href, hrefs⟩
          · rintro ⟨ref, href, hrefs⟩
            obtain rfl | href := List.mem_cons.mp href
            · exact absurd (hfalls.mpr hrefs) hlow
            · exact ⟨ref, href, (falls_congr scoreMap (hrest ref href) hcut).mpr hrefs⟩

/-! ### The report -/

/-- A loop that refreshes the rank list. -/
lemma foldl_refresh (l : List ℕ) (m : RoundMgr) :
    ∃ rankList, l.foldl refresh m = { m with rankList := rankList } := by
  induction l generalizing m with
  | nil => exact ⟨_, rfl⟩
  | cons ref l ih => exact ih (m.refresh ref)

/-- Sorting changes the order in three lists, and the rank list. -/
lemma sortPlayers_eq (sort : ScoreSort) (m : RoundMgr) :
    ∃ rankList, m.sortPlayers sort =
      { m with
        rankList := rankList
        playerList := sort.sort m.score m.playerList
        playingPlayers := sort.sort m.score m.playingPlayers
        reservePlayer := sort.sort m.score m.reservePlayer } := by
  unfold sortPlayers
  obtain ⟨rankList, h⟩ := foldl_refresh (sort.sort m.score m.playingPlayers)
    { m with
      playerList := sort.sort m.score m.playerList
      playingPlayers := sort.sort m.score m.playingPlayers }
  refine ⟨rankList, ?_⟩
  dsimp only
  rw [h]
  rfl

/-- The players of the map who are kept, once their scores are `m'.score`. -/
def keptNow (m m' : RoundMgr) (scoreMap : ℕ → Option ℤ) : List ℕ :=
  m.playingPlayers.filter fun ref =>
    (m.named scoreMap ref).isSome && decide (m.cutScore ≤ m'.score ref)

variable (scoreMap) in
/-- **The report of a known room**: what it does to the players and to the kept ones. -/
lemma updateScore_spec (sort : ScoreSort) (hnodup : m.playingPlayers.Nodup) {roomid : ℕ}
    (hroom : (m.getRoom roomid).isSome) :
    (∀ ref, (m.updateScore sort scoreMap roomid).1.items ref =
        if ref ∈ m.reached scoreMap m.playingPlayers then m.paid scoreMap ref else m.items ref) ∧
      ((m.updateScore sort scoreMap roomid).2 = true ↔ m.EndsGame scoreMap roomid) ∧
      (m.updateScore sort scoreMap roomid).1.reservePlayer.Perm
        (if (m.updateScore sort scoreMap roomid).2 then m.reservePlayer ++
          m.keptNow (m.updateScore sort scoreMap roomid).1 scoreMap else m.reservePlayer) := by
  obtain ⟨roomInfo, hroom⟩ := Option.isSome_iff_exists.mp hroom
  set m₀ : RoundMgr := { m with roomList := countGame roomid m.roomList } with hm₀
  set added := addScores scoreMap m.playingPlayers m₀ with hadded
  set ends := decide (m.roundConfig.endCount ≤ roomInfo.roundCount) || added.2 with hends
  have hupdate : m.updateScore sort scoreMap roomid =
      ((if ends then added.1.reserve scoreMap else added.1).sortPlayers sort, ends) := by
    rw [updateScore, hroom]
  obtain ⟨hitems, hfalls, items, rankList, hframe⟩ :=
    addScores_spec scoreMap (m := m₀) (l := m.playingPlayers) hnodup
  have hplayers : added.1.playingPlayers = m.playingPlayers := by rw [hadded, hframe]
  have hreserve : added.1.reservePlayer = m.reservePlayer := by rw [hadded, hframe]
  have hcut : added.1.cutScore = m.cutScore := by rw [hadded, hframe]
  have hadd : ∀ ref, added.1.items ref =
      if ref ∈ m.reached scoreMap m.playingPlayers then m.paid scoreMap ref else m.items ref := by
    have hreached : m₀.reached scoreMap m.playingPlayers = m.reached scoreMap m.playingPlayers :=
      reached_congr scoreMap (fun _ _ => rfl) rfl
    intro ref
    rw [hadded, hitems, hreached]
    rfl
  have hnamed : ∀ ref, added.1.named scoreMap ref = m.named scoreMap ref := by
    intro ref
    unfold named
    rw [hadd]
    split_ifs <;> rfl
  obtain ⟨ranks, hsorted⟩ :=
    sortPlayers_eq sort (if ends then added.1.reserve scoreMap else added.1)
  have hsame : ((if ends then added.1.reserve scoreMap else added.1).sortPlayers sort).items =
      added.1.items := by
    rw [hsorted]
    split_ifs <;> rfl
  rw [hupdate]
  refine ⟨fun ref => ?_, ?_, ?_⟩
  · rw [hsame, hadd]
  · rw [hends, Bool.or_eq_true, decide_eq_true_eq, hadded, hfalls, EndsGame, hroom]
    simp only [Option.mem_def, Option.some.injEq, exists_eq_left']
    exact Iff.rfl
  · dsimp only
    have hperm := sort.perm (if ends then added.1.reserve scoreMap else added.1).score
      (if ends then added.1.reserve scoreMap else added.1).reservePlayer
    have hkept : m.keptNow ((if ends then added.1.reserve scoreMap else added.1).sortPlayers sort)
        scoreMap = added.1.playingPlayers.filter fun ref =>
          (added.1.named scoreMap ref).isSome && decide (added.1.cutScore ≤ added.1.score ref) := by
      unfold keptNow score
      rw [hsame, hplayers, hcut]
      simp only [hnamed]
    rw [hkept]
    rw [hsorted]
    refine hperm.trans (List.Perm.of_eq ?_)
    split_ifs
    · rw [← hreserve]
      rfl
    · rw [hreserve]

/-- How often a player of the map is kept by a report that ends the game. -/
lemma count_keptNow (hnodup : m.playingPlayers.Nodup) (href : ref ∈ m.playingPlayers)
    (hnamed : (m.named scoreMap ref).isSome) :
    (m.keptNow m' scoreMap).count ref = if m.cutScore ≤ m'.score ref then 1 else 0 := by
  unfold keptNow
  split_ifs with hcut
  · rw [List.count_filter (by simp [hnamed, hcut])]
    exact List.count_eq_one_of_mem hnodup href
  · refine List.count_eq_zero_of_not_mem fun hmem => hcut ?_
    simpa [hnamed] using (List.mem_filter.mp hmem).2

/-- A report about an unknown room changes nothing. -/
lemma updateScore_unknown (sort : ScoreSort) {roomid : ℕ} (hroom : m.getRoom roomid = none) :
    m.updateScore sort scoreMap roomid = (m, false) := by
  rw [updateScore, hroom]

end RoundMgr

/-- **The scores of a game are added and the right players kept exactly when no player behind one
who falls below the cut has a score in the map** (other than zero), the room is known, and none of
the players in the map has been kept before.

**Proof sketch.** The players that the first loop reaches are those up to the first one who falls
(`RoundMgr.addScores_spec`), so the scores of the others are added exactly when they are zero
(`RoundMgr.pairwise_falls_iff`). The second loop appends the players of the map who are not below
the cut once each, and the sort does not change how often a player is kept. -/
theorem updateScore_iff (sort : ScoreSort) {m : RoundMgr} (scoreMap : ℕ → Option ℤ) (roomid : ℕ)
    (hnodup : m.playingPlayers.Nodup) :
    m.Updated scoreMap (m.updateScore sort scoreMap roomid) ↔ m.NoneLost scoreMap roomid := by
  cases hroom : m.getRoom roomid with
  | none =>
    rw [RoundMgr.updateScore_unknown sort hroom]
    constructor
    · intro h
      refine ⟨fun _ ref href amount hamount => ?_, fun hsome => ?_, fun hends => ?_⟩
      · have hadded : m.score ref = m.score ref + amount := h.added ref href amount hamount
        omega
      · rw [hroom] at hsome
        cases hsome
      · obtain ⟨roomInfo, hsome, -⟩ := hends
        rw [hroom] at hsome
        cases hsome
    · intro h
      refine ⟨fun ref href amount hamount => ?_, fun _ _ => rfl, nofun⟩
      rw [h.room hroom ref href amount hamount, Int.add_zero]
  | some roomInfo =>
    have hsome : (m.getRoom roomid).isSome := by rw [hroom]; rfl
    obtain ⟨hitems, hends, hperm⟩ := RoundMgr.updateScore_spec scoreMap sort hnodup hsome
    set result := m.updateScore sort scoreMap roomid with hresult
    have hscore : ∀ ref, result.1.score ref =
        if ref ∈ m.reached scoreMap m.playingPlayers then
          m.score ref + (m.named scoreMap ref).getD 0 else m.score ref := by
      intro ref
      rw [RoundMgr.score, hitems]
      split_ifs <;> rfl
    have hcount : ∀ ref ∈ m.playingPlayers, (m.named scoreMap ref).isSome → result.2 = true →
        result.1.reservePlayer.count ref =
          m.reservePlayer.count ref + if m.cutScore ≤ result.1.score ref then 1 else 0 := by
      intro ref href hnamed hends
      rw [hperm.count_eq, if_pos hends, List.count_append,
        RoundMgr.count_keptNow hnodup href hnamed]
    constructor
    · intro h
      refine ⟨fun hnone => ?_, fun _ => ?_, fun hgame ref href hnamed => ?_⟩
      · rw [hroom] at hnone
        cases hnone
      · refine (RoundMgr.pairwise_falls_iff hnodup).mpr fun ref href hnot amount hamount => ?_
        have hadded := h.added ref href amount hamount
        rw [hscore, if_neg hnot] at hadded
        omega
      · have hkept := h.kept (hends.mpr hgame) ref href hnamed
        rw [hcount ref href hnamed (hends.mpr hgame)] at hkept
        exact List.count_eq_zero.mp (by omega)
    · intro h
      have hrest := (RoundMgr.pairwise_falls_iff hnodup).mp (h.order hsome)
      refine ⟨fun ref href amount hamount => ?_, fun ref hother => ?_,
        fun hgame ref href hnamed => ?_⟩
      · have hnamed : (m.named scoreMap ref).getD 0 = amount := by rw [hamount]; rfl
        rw [hscore, hnamed]
        split_ifs with hreached
        · rfl
        · rw [hrest ref href hreached amount hamount, Int.add_zero]
      · rw [hitems]
        split_ifs with hreached
        · have hnone := hother (RoundMgr.mem_of_mem_reached hreached)
          simp [RoundMgr.paid, hnone, RoundMgr.score]
        · rfl
      · rw [hcount ref href hnamed hgame,
          List.count_eq_zero.mpr (h.fresh (hends.mp hgame) ref href hnamed), Nat.zero_add]

/-- Two players of a room with the scores 100 and 100, of which 50 are needed. -/
def twoPlayers : RoundMgr where
  sngConfig := ⟨100, 2, [⟨2, 8, [50]⟩, ⟨1, 8, [50]⟩], rfl⟩
  items ref := ⟨ref + 1, 100, some 7⟩
  made := 2
  playing := true
  playerList := [0, 1]
  roomList := [⟨7, 1⟩]
  playingPlayers := [0, 1]
  rankList := [(1, 100), (2, 100)]
  roundConfig := ⟨2, 8, [50]⟩
  cutScore := 50

/-- Sorting by insertion. -/
def insertionSort : ScoreSort where
  sort score l := l.insertionSort fun p q => score q ≤ score p
  perm score l := List.perm_insertionSort _ l
  pairwise score l := by
    have : Std.Total fun p q => score q ≤ score p := ⟨fun p q => le_total (score q) (score p)⟩
    have : IsTrans ℕ fun p q => score q ≤ score p := ⟨fun _ _ _ h h' => h'.trans h⟩
    exact List.pairwise_insertionSort _ l

/-- The game of two players, by what the first one wins. -/
def firstWins (amount : ℤ) (uid : ℕ) : Option ℤ := some (if uid = 1 then amount else -amount)

/-- The second player loses thirty to the first. -/
theorem thirty_paid : twoPlayers.Updated (firstWins 30)
    (twoPlayers.updateScore insertionSort (firstWins 30) 7) := by
  refine (updateScore_iff insertionSort _ 7 (by decide)).mpr ⟨nofun, fun _ => ?_, fun _ _ _ _ => ?_⟩
  · decide
  · exact List.not_mem_nil

/-- The first player loses sixty to the second and is out, and the second does not get them. -/
theorem winner_not_paid :
    ¬ twoPlayers.Updated (firstWins (-60))
      (twoPlayers.updateScore insertionSort (firstWins (-60)) 7) := by
  intro h
  have hadded := h.added 1 (by decide) 60 rfl
  exact absurd hadded (by decide)

end Sng
