import JsmjServer.Nanjing.Discards

set_option relaxedAutoImplicit false
set_option autoImplicit false

/-!
# Doubled rounds of a nanjing room

At the end of a round `GameEnd:onEntry` decides whether payments are doubled in the next one, and
writes it to `gameProgress.isBiXiaHu`. In the branch for a drawn round the value goes to a field of
`GameEnd` itself, which nobody reads, so that the flag of the round before stays. In the other
branch flower kongs and fines are looked up in the loop over the winners; a round that ends without
one, because a seat wins on the tile left after its peng while `multiHuPos` is empty, does not count
them.

The room is watched from outside: which flower kongs and fines there have been since the round
began is read off the lists of the seats and the rivers.

## Main definitions

* `Nanjing.Room.MadeHuaGang`, `Nanjing.Room.MadeFaFen` — a flower kong, and a discard that is fined.
* `Nanjing.Room.Doubles` — when the round after one is doubled, by the rules.
* `Nanjing.Watched`, `Nanjing.Watched.watch` — a room with what has happened in its round.
* `Nanjing.Watched.Agrees` — an event whose round ends as the rules say.

## Main results

* `Nanjing.Room.handle_noted` — what every event does to the flags.
* `Nanjing.Watched.sound_of_passes` — the flags of the program tell what has happened.
* `Nanjing.Watched.isBiXiaHu_iff` — exactly when the flag is right throughout a run.
-/

namespace Nanjing

open Mahjong

/-! ### What happens in a round -/

namespace Room

/-- A seat has a flower kong that it did not have before. -/
def MadeHuaGang (s s' : Room) : Prop := ∃ p, s'.huaGangList p ≠ s.huaGangList p

instance (s s' : Room) : Decidable (s.MadeHuaGang s') :=
  inferInstanceAs (Decidable (∃ _ : Seat, _))

/-- The tile that has come to the river of the seat. -/
def discarded (s s' : Room) (p : Seat) : Option ℕ :=
  if (s.table.riverCardList p).length < (s'.table.riverCardList p).length then
    (s'.table.riverCardList p).getLast?
  else none

/-- A discard is fined: for the fourth tile of a kind in the river, and for a tile that the other
seats have discarded last. -/
def MadeFaFen (s s' : Room) : Prop :=
  ∃ p, ∃ b ∈ s.discarded s' p, (s'.table.riverCardList p).count b = 4 ∨
    ∀ q, q ≠ p → (s'.table.riverCardList q).getLast? = some b

instance (s s' : Room) : Decidable (s.MadeFaFen s') :=
  inferInstanceAs (Decidable (∃ p, ∃ b ∈ s.discarded s' p, _))

/-- The round after this one is doubled: it is drawn, the banker is among the winners, one of them
has won on a replacement tile or makes somebody liable, there are several, there has been a flower
kong or a fine, or the winner is the next banker where that counts. -/
def Doubles (rule : RoomRule) (evaluate : Seat → Evaluation) (banker : Option Seat)
    (args : EndArgs) (huaGang faFen : Bool) : Prop :=
  args.isLiuJu = true ∨ (∃ pos ∈ banker, pos ∈ args.winnerPosList) ∨
    (∃ pos ∈ args.winnerPosList, (evaluate pos).hasGangKai = true ∨
      ((evaluate pos).baoPai rule).isSome = true) ∨
    1 < args.winnerPosList.length ∨ huaGang = true ∨ faFen = true ∨
    (rule.isJieZhuangBiXiaHu = true ∧ ∃ pos ∈ banker, args.winnerPosList = [nextPlayerPos pos])

instance (rule : RoomRule) (evaluate : Seat → Evaluation) (banker : Option Seat) (args : EndArgs)
    (huaGang faFen : Bool) : Decidable (Doubles rule evaluate banker args huaGang faFen) :=
  inferInstanceAs (Decidable (_ ∨ _))

/-- The arguments of a round that is over and settled: a drawn one, or one whose settlement does
not stop. -/
def finished (rule : RoomRule) (asked : Asked) (s : Room) : Option EndArgs :=
  s.table.endArgs.filter fun args => args.isLiuJu || !asked.stops &&
    (calculateMoney rule s.accounts.leftMoney asked.evaluate args).isSome

end Room

/-! ### The rivers -/

section Rivers

variable (gameProgress : GameProgress) {s s' : Table} {t p : Seat} {b : ℕ}

lemma checkMyOper_river (s : Table) (t : Seat) (checkOp : Bool) :
    (checkMyOper gameProgress s t checkOp).riverCardList = s.riverCardList := by
  unfold checkMyOper
  dsimp only
  split_ifs <;> rfl

lemma giveNewCard_river (s : Table) (t : Seat) :
    (giveNewCard gameProgress s t).riverCardList = s.riverCardList := by
  unfold giveNewCard
  split_ifs
  · rfl
  cases htake : takeCard s t with
  | none => rfl
  | some x =>
    obtain ⟨c, s₁⟩ := x
    obtain ⟨wall, need, rfl⟩ := takeCard_frame htake
    dsimp only
    split_ifs
    · rfl
    · exact checkMyOper_river gameProgress _ _ true

lemma autoHu_river (s : Table) (pos : Option Seat) : (autoHu s pos b).riverCardList =
    s.riverCardList := by
  cases pos <;> rfl

/-- Whether it stops or not, `checkOtherOper` moves no tile. -/
lemma checkOtherOper_river (s : Table) (t : Seat) (b : ℕ) (bGrabGang : Bool) :
    (∀ s', checkOtherOper gameProgress s t b bGrabGang = .error s' →
      s'.riverCardList = s.riverCardList) ∧
    ∀ c, checkOtherOper gameProgress s t b bGrabGang = .ok c →
      c.2.2.riverCardList = s.riverCardList := by
  obtain ⟨l, r, -, hoff, hcases⟩ := Hands.checkOtherOper_cases gameProgress s t b bGrabGang
  have hr : r.2.riverCardList = s.riverCardList := by
    rw [hoff.frame]
    rfl
  obtain heq | heq := hcases
  · rw [heq]
    refine ⟨fun s' hs' => ?_, fun c hc => absurd hc (by simp)⟩
    rw [← Except.error.inj hs']
    exact hr
  · rw [heq]
    refine ⟨fun s' hs' => absurd hs' (by simp), fun c hc => ?_⟩
    rw [← Except.ok.inj hc]
    exact hr

/-- The tile that has been claimed leaves its river. -/
lemma setRiver_popCard_prefix (s : Table) (t p : Seat) :
    (s.setRiver t (MJRiver.popCard (s.riverCardList t))).riverCardList p <+: s.riverCardList p := by
  change Function.update s.riverCardList t (s.riverCardList t).dropLast p <+: _
  by_cases hp : p = t
  · rw [hp, Function.update_self]
    exact List.dropLast_prefix _
  · rw [Function.update_of_ne hp]

lemma doPeng_river (s : Table) (p q : Seat) (b : ℕ) (t : Seat) :
    (doPeng gameProgress s p b t).2.riverCardList q <+: s.riverCardList q := by
  unfold doPeng
  dsimp only
  split_ifs
  · rw [checkMyOper_river]
    exact setRiver_popCard_prefix (s.setPlayer p _) t q
  · exact List.prefix_rfl

end Rivers

/-! ### What the handlers note -/

namespace Room

section Handlers

variable (rule : RoomRule) (ask : Seat → Option ℕ → CountHuType) {s s' : Room} {p t : Seat}
  {b : ℕ}

/-- All tiles of the rivers are tiles. -/
def Clean (s : Room) : Prop := ∀ p, ∀ c ∈ s.table.riverCardList p, MJCard.isValid c = true

/-- What every handler does: the flags are set for a flower kong and for a fine. -/
structure Noted (s s' : Room) : Prop where
  twice : s'.isBiXiaHu = s.isBiXiaHu
  huaGang : s'.hasHuaGang = (s.hasHuaGang || decide (s.MadeHuaGang s'))
  faFen : s'.hasFaFen = (s.hasFaFen || decide (s.MadeFaFen s'))
  clean : s'.Clean

/-- No tile comes to a river, and no flower is put aside. -/
structure Quiet (s s' : Room) : Prop where
  twice : s'.isBiXiaHu = s.isBiXiaHu
  huaGang : s'.hasHuaGang = s.hasHuaGang
  huaGangList : s'.huaGangList = s.huaGangList
  faFen : s'.hasFaFen = s.hasFaFen
  river : ∀ p, s'.table.riverCardList p <+: s.table.riverCardList p

lemma Quiet.noted (h : Quiet s s') (hc : s.Clean) : Noted s s' := by
  have hhua : ¬s.MadeHuaGang s' := by
    rintro ⟨p, hp⟩
    exact hp (by rw [h.huaGangList])
  have hfa : ¬s.MadeFaFen s' := by
    rintro ⟨p, b, hb, -⟩
    have hlt : ¬(s.table.riverCardList p).length < (s'.table.riverCardList p).length := by
      have := (h.river p).length_le
      omega
    rw [discarded, if_neg hlt] at hb
    exact absurd hb (by simp)
  refine ⟨h.twice, ?_, ?_, fun p c hmem => hc p c ((h.river p).subset hmem)⟩
  · simp [h.huaGang, hhua]
  · simp [h.faFen, hfa]

/-- The handler has been called on another table with the same rivers. -/
lemma Noted.of_table {table : Table} (h : Noted { s with table := table } s')
    (hriver : table.riverCardList = s.table.riverCardList) : Noted s s' := by
  have hfa : MadeFaFen { s with table := table } s' ↔ s.MadeFaFen s' := by
    unfold MadeFaFen discarded
    rw [hriver]
  refine ⟨h.twice, h.huaGang, ?_, h.clean⟩
  rw [h.faFen]
  simp only [hfa]

/-- The tile `b` has been put on the river of the seat `p`. -/
structure Played (s s' : Room) (p : Seat) (b : ℕ) : Prop where
  twice : s'.isBiXiaHu = s.isBiXiaHu
  huaGang : s'.hasHuaGang = s.hasHuaGang
  huaGangList : s'.huaGangList = s.huaGangList
  faFen : s'.hasFaFen = (s.hasFaFen || s.fourSame p b || isGeng4 s.table p b)
  river : s'.table.riverCardList = Function.update s.table.riverCardList p
    (MJRiver.pushCard (s.table.riverCardList p) b)

/-- The fines of the program are those that are due. -/
lemma Played.madeFaFen_iff (h : Played s s' p b) (hc : s.Clean) :
    s.MadeFaFen s' ↔ s.fourSame p b = true ∨ isGeng4 s.table p b = true := by
  have hother : ∀ q, q ≠ p → s'.table.riverCardList q = s.table.riverCardList q := fun q hq => by
    rw [h.river, Function.update_of_ne hq]
  have hself : s'.table.riverCardList p = MJRiver.pushCard (s.table.riverCardList p) b := by
    rw [h.river, Function.update_self]
  have hnone : ∀ q, q ≠ p → s.discarded s' q = none := fun q hq => by
    rw [discarded, hother q hq, if_neg (lt_irrefl _)]
  by_cases hv : MJCard.isValid b = true
  · have hpush : MJRiver.pushCard (s.table.riverCardList p) b = s.table.riverCardList p ++ [b] :=
      if_pos hv
    have hsome : s.discarded s' p = some b := by
      have hlt : (s.table.riverCardList p).length < (s'.table.riverCardList p).length := by
        rw [hself, hpush, List.length_append]
        simp
      rw [discarded, if_pos hlt, hself, hpush, List.getLast?_concat]
    rw [isGeng4_iff, fourSame, beq_iff_eq, ← hself]
    constructor
    · rintro ⟨q, c, hc, hfine⟩
      obtain rfl : q = p := by
        by_contra hq
        rw [hnone q hq] at hc
        exact absurd hc (by simp)
      rw [hsome, Option.mem_some_iff] at hc
      subst hc
      refine hfine.imp_right fun hlast r hr => ?_
      rw [← hother r hr]
      exact hlast r hr
    · intro hfine
      refine ⟨p, b, hsome, hfine.imp_right fun hlast r hr => ?_⟩
      rw [hother r hr]
      exact hlast r hr
  · -- a byte that is no tile stays away from the river, and is in none
    have hpush : MJRiver.pushCard (s.table.riverCardList p) b = s.table.riverCardList p :=
      if_neg hv
    have hnot : ∀ q, b ∉ s.table.riverCardList q := fun q hmem => hv (hc q b hmem)
    have hfour : s.fourSame p b = false := by
      rw [fourSame, hpush, List.count_eq_zero_of_not_mem (hnot p)]
      rfl
    have hgeng : isGeng4 s.table p b = false := by
      apply eq_false_of_ne_true
      intro htrue
      have hlast := (isGeng4_iff _ _ _).mp htrue (p + 1) ((by decide : ∀ p : Seat, p + 1 ≠ p) p)
      exact hnot _ (List.mem_of_getLast? hlast)
    rw [hfour, hgeng]
    simp only [Bool.false_eq_true, or_self, iff_false]
    rintro ⟨q, c, hc, -⟩
    rcases eq_or_ne q p with rfl | hq
    · rw [discarded, hself, hpush, if_neg (lt_irrefl _)] at hc
      exact absurd hc (by simp)
    · rw [hnone q hq] at hc
      exact absurd hc (by simp)

lemma Played.noted (h : Played s s' p b) (hc : s.Clean) : Noted s s' := by
  have hhua : ¬s.MadeHuaGang s' := by
    rintro ⟨q, hq⟩
    exact hq (by rw [h.huaGangList])
  refine ⟨h.twice, ?_, ?_, fun q c hmem => ?_⟩
  · simp [h.huaGang, hhua]
  · rw [h.faFen, Bool.or_assoc]
    congr 1
    rw [Bool.eq_iff_iff, Bool.or_eq_true, decide_eq_true_eq, h.madeFaFen_iff hc]
  · rw [h.river] at hmem
    by_cases hq : q = p
    · rw [hq, Function.update_self, MJRiver.pushCard] at hmem
      split_ifs at hmem with hv
      · rcases List.mem_append.mp hmem with hmem | hmem
        · exact hc p c hmem
        · rw [List.mem_singleton.mp hmem]
          exact hv
      · exact hc p c hmem
    · rw [Function.update_of_ne hq] at hmem
      exact hc q c hmem

lemma Quiet.refl (s : Room) : Quiet s s := ⟨rfl, rfl, rfl, rfl, fun _ => List.prefix_rfl⟩

/-- Only the table changes. -/
lemma Quiet.of_table {table : Table}
    (h : ∀ p, table.riverCardList p <+: s.table.riverCardList p) :
    Quiet s { s with table := table } := ⟨rfl, rfl, rfl, rfl, h⟩

/-- A tile is drawn at the end. -/
lemma Quiet.giveNewCard (h : Quiet s s') (turn : Seat) :
    Quiet s (giveNewCard rule ask s' turn) := by
  refine ⟨h.twice, h.huaGang, h.huaGangList, h.faFen, fun p => ?_⟩
  change (Nanjing.giveNewCard (s'.gameProgress rule ask) s'.table turn).riverCardList p <+: _
  rw [giveNewCard_river]
  exact h.river p

lemma doGang_quiet (s : Room) (p : Seat) (b : ℕ) (t : Seat) :
    Quiet s (doGang rule ask s p b t).2 := by
  unfold doGang
  dsimp only
  split_ifs
  · refine Quiet.giveNewCard rule ask ?_ p
    exact ⟨rfl, rfl, rfl, rfl, fun q => setRiver_popCard_prefix (s.table.setPlayer p _) t q⟩
  · exact .refl s

lemma doAnGang_quiet (s : Room) (p : Seat) (b : ℕ) (t : Seat) :
    Quiet s (doAnGang rule ask s p b t) := by
  unfold doAnGang
  dsimp only
  split_ifs
  · refine Quiet.giveNewCard rule ask ?_ p
    exact ⟨rfl, rfl, rfl, rfl, fun _ => List.prefix_rfl⟩
  · exact .refl s

lemma doMXGang_quiet (s : Room) (p : Seat) (b : ℕ) :
    Quiet s (doMXGang rule ask s p b).state := by
  unfold doMXGang
  dsimp only
  split_ifs
  · split
    · exact .of_table fun _ => List.prefix_rfl
    · have hother := checkOtherOper_river (gameProgress rule ask
        { s with table := s.table.setPlayer p ((s.table.playerList p).doMXGang b).2 })
        (s.table.setPlayer p ((s.table.playerList p).doMXGang b).2) p b true
      split
      · rename_i table heq
        refine .of_table fun q => ?_
        rw [hother.1 table heq]
        exact List.prefix_rfl
      · rename_i c heq
        have hc := hother.2 c heq
        split_ifs
        · refine ⟨rfl, rfl, rfl, rfl, fun q => ?_⟩
          change (autoHu _ c.2.1 b).riverCardList q <+: _
          rw [autoHu_river, show ({ c.2.2 with
            isQiangGanging := true, qiangGangInfo := some p } : Table).riverCardList =
              s.table.riverCardList from hc]
        · refine Quiet.giveNewCard rule ask ?_ p
          refine ⟨rfl, rfl, rfl, rfl, fun q => ?_⟩
          change c.2.2.riverCardList q <+: _
          rw [hc]
          exact List.prefix_rfl
  · exact .refl s

/-- A seat gets a flower kong, and no tile comes to a river. -/
lemma noted_of_huaGang (hc : s.Clean) {turn : Seat} {huaGangList : List ℕ}
    (hne : huaGangList ≠ s.huaGangList turn)
    (hlist : s'.huaGangList = Function.update s.huaGangList turn huaGangList)
    (hmark : s'.hasHuaGang = true) (hfa : s'.hasFaFen = s.hasFaFen)
    (hriver : s'.table.riverCardList = s.table.riverCardList)
    (htwice : s'.isBiXiaHu = s.isBiXiaHu) : Noted s s' := by
  have hmade : s.MadeHuaGang s' := by
    refine ⟨turn, ?_⟩
    rw [hlist, Function.update_self]
    exact hne
  have hnone : ¬s.MadeFaFen s' := by
    rintro ⟨p, b, hb, -⟩
    rw [discarded, hriver, if_neg (lt_irrefl _)] at hb
    exact absurd hb (by simp)
  refine ⟨htwice, by simp [hmark, hmade], by simp [hfa, hnone], fun p c hmem => ?_⟩
  rw [hriver] at hmem
  exact hc p c hmem

/-- A flower that is put aside may make a kong. -/
lemma buHua_noted (hc : s.Clean) (turn : Seat) : Noted s (buHua rule ask s turn) := by
  unfold buHua
  dsimp only
  split_ifs
  · split
    · refine Quiet.noted (Quiet.giveNewCard rule ask ?_ turn) hc
      exact .of_table fun _ => List.prefix_rfl
    · rename_i huaGangList hgang
      have hne : huaGangList ≠ s.huaGangList turn := by
        unfold isHuaGang at hgang
        split_ifs at hgang <;> (rw [← Option.some.inj hgang]; simp)
      refine noted_of_huaGang hc hne rfl rfl rfl ?_ rfl
      exact giveNewCard_river _ _ turn
  · exact Quiet.noted (.refl s) hc

lemma faFen_state (s : Room) (loser : Seat) :
    ∃ a, (faFen rule s loser).state = { s with accounts := a, hasFaFen := true } := by
  unfold faFen
  dsimp only
  split
  · exact ⟨s.accounts, rfl⟩
  · exact ⟨_, rfl⟩

/-- A fine is noted when it is due. -/
lemma faFens_state (s : Room) (pos : Seat) (b : ℕ) : ∃ a, (faFens rule s pos b).state = { s with
    accounts := a
    hasFaFen := s.hasFaFen || (s.table.riverCardList pos).count b == 4 ||
      isGeng4 s.table pos b } := by
  unfold faFens
  by_cases hfour : (s.table.riverCardList pos).count b = 4
  · obtain ⟨a, ha⟩ := faFen_state rule s pos
    simp only [hfour, if_true, beq_self_eq_true, Bool.or_true, Bool.true_or]
    cases hr : faFen rule s pos with
    | error s₁ =>
      rw [hr] at ha
      exact ⟨a, ha⟩
    | ok s₁ =>
      rw [hr] at ha
      obtain rfl : s₁ = { s with accounts := a, hasFaFen := true } := ha
      simp only [Except.bind]
      by_cases hgeng : isGeng4 s.table pos b = true
      · obtain ⟨a', ha'⟩ := faFen_state rule { s with accounts := a, hasFaFen := true }
          (nextPlayerPos pos)
        rw [if_pos hgeng]
        exact ⟨a', ha'⟩
      · rw [if_neg hgeng]
        exact ⟨a, rfl⟩
  · have hbeq : ((s.table.riverCardList pos).count b == 4) = false := by simpa using hfour
    simp only [if_neg hfour, hbeq, Bool.or_false, Except.bind]
    by_cases hgeng : isGeng4 s.table pos b = true
    · obtain ⟨a, ha⟩ := faFen_state rule s (nextPlayerPos pos)
      rw [if_pos hgeng, hgeng, Bool.or_true]
      exact ⟨a, ha⟩
    · rw [if_neg hgeng, eq_false_of_ne_true hgeng, Bool.or_false]
      exact ⟨s.accounts, rfl⟩

lemma onPlayCard_noted (hc : s.Clean) (pos : Seat) (card : Option ℕ) :
    Noted s (onPlayCard rule ask s pos card).state := by
  cases card with
  | none => exact Quiet.noted (.refl s) hc
  | some b =>
    unfold onPlayCard
    dsimp only
    split_ifs
    · exact Quiet.noted (.refl s) hc
    · exact Quiet.noted (.refl s) hc
    set player := ((s.table.playerList pos).doPlayCard b).2
    set s₀ : Room := { s with table := discard s.table pos b player }
    have hriver : s₀.table.riverCardList = Function.update s.table.riverCardList pos
        (MJRiver.pushCard (s.table.riverCardList pos) b) := discard_river s.table pos b player
    have hself : s₀.table.riverCardList pos = MJRiver.pushCard (s.table.riverCardList pos) b := by
      rw [hriver, Function.update_self]
    have hgeng : isGeng4 s₀.table pos b = isGeng4 s.table pos b :=
      isGeng4_discard s.table pos b player
    obtain ⟨a, ha⟩ := faFens_state rule s₀ pos b
    rw [hself, hgeng] at ha
    -- what follows changes the table only, and no river
    have hplayed : ∀ table : Table, table.riverCardList = s₀.table.riverCardList →
        Played s { (faFens rule s₀ pos b).state with table := table } pos b := by
      intro table htable
      rw [ha]
      exact ⟨rfl, rfl, rfl, rfl, htable.trans hriver⟩
    have hsame : (faFens rule s₀ pos b).state.table.riverCardList = s₀.table.riverCardList := by
      rw [faFens_table]
    cases hr : faFens rule s₀ pos b with
    | error s₁ =>
      rw [hr] at hplayed hsame
      exact (hplayed s₁.table hsame).noted hc
    | ok s₁ =>
      rw [hr] at hplayed hsame
      have hother := checkOtherOper_river (gameProgress rule ask s₁) s₁.table pos b false
      simp only [Except.bind]
      split
      · rename_i table heq
        exact (hplayed table ((hother.1 table heq).trans hsame)).noted hc
      · rename_i c heq
        have hcheck := (hother.2 c heq).trans hsame
        split_ifs
        · exact (hplayed _ ((giveNewCard_river _ _ _).trans hcheck)).noted hc
        · exact (hplayed _ ((autoHu_river _ _).trans hcheck)).noted hc

lemma cancelEnd_quiet (s : Room) (p t : Seat) : Quiet s (cancelEnd rule ask s p t).state := by
  unfold cancelEnd
  split_ifs
  · split
    · refine Quiet.giveNewCard rule ask ?_ _
      exact ⟨rfl, rfl, rfl, rfl, fun _ => List.prefix_rfl⟩
    · exact .refl s
  · split
    · exact .refl s
    · split_ifs
      · exact .refl s
      · exact Quiet.giveNewCard rule ask (.refl s) _

lemma doPeng_quiet (s : Room) (p : Seat) (b : ℕ) (t : Seat) :
    Quiet s (doPeng rule ask s p b t).2 :=
  .of_table fun q => doPeng_river _ s.table p q b t

lemma grabEnd_noted (hc : s.Clean) : Noted s (grabEnd rule ask s).state := by
  unfold grabEnd
  split
  · exact Quiet.noted (.refl s) hc
  split
  · exact Quiet.noted (Quiet.giveNewCard rule ask (.refl s) _) hc
  rename_i grabedPos _ _ node _
  dsimp only
  split
  · exact (cancelEnd_quiet rule ask s _ _).noted hc
  · exact Quiet.noted (.refl s) hc
  · exact Quiet.noted (.of_table fun _ => List.prefix_rfl) hc
  · split_ifs
    · exact (doPeng_quiet rule ask s _ _ _).noted hc
    · exact ((doPeng_quiet rule ask s _ _ _).giveNewCard rule ask _).noted hc
  · exact (doAnGang_quiet rule ask s _ _ _).noted hc
  · split_ifs
    · exact (doGang_quiet rule ask s _ _ _).noted hc
    · exact ((doGang_quiet rule ask s _ _ _).giveNewCard rule ask _).noted hc
  · exact (doMXGang_quiet rule ask s _ _).noted hc
  · exact onPlayCard_noted rule ask hc _ _
  · exact Quiet.noted (.refl s) hc

lemma decideOrWait_noted (hc : s.Clean) : Noted s (decideOrWait rule ask s).state := by
  unfold decideOrWait
  split
  · exact Quiet.noted (.refl s) hc
  · exact grabEnd_noted rule ask hc
  · exact Quiet.noted (.refl s) hc

/-- The decision is made on a table with the same rivers. -/
lemma decideOrWait_table (hc : s.Clean) {table : Table}
    (hriver : table.riverCardList = s.table.riverCardList) :
    Noted s (decideOrWait rule ask { s with table := table }).state := by
  refine Noted.of_table (decideOrWait_noted rule ask fun p c hmem => hc p c ?_) hriver
  rw [← hriver]
  exact hmem

lemma onGrabCard_noted (hc : s.Clean) (pos : Seat) (oper : Oper) (card : Option ℕ) :
    Noted s (onGrabCard rule ask s pos oper card).state := by
  have hclear : ∀ table : Table, table.riverCardList = s.table.riverCardList →
      (clearCanDoMap table pos).riverCardList = s.table.riverCardList := by
    intro table htable
    obtain ⟨map, hmap⟩ := clearCanDoMap_others table pos
    rw [hmap]
    exact htable
  unfold onGrabCard
  split
  · exact Quiet.noted (.refl s) hc
  split
  · exact Quiet.noted (.refl s) hc
  split
  · exact Quiet.noted (.refl s) hc
  split
  · refine decideOrWait_table rule ask hc ?_
    dsimp only
    split_ifs <;> exact hclear _ rfl
  · split
    · exact Quiet.noted (.refl s) hc
    · split_ifs
      · refine decideOrWait_table rule ask hc ?_
        exact hclear _ rfl
      · exact Quiet.noted (.refl s) hc

lemma onClientMsg_noted (hc : s.Clean) (pos : Seat) (pkg : ClientMsg) :
    Noted s (onClientMsg rule ask s pos pkg).state := by
  unfold onClientMsg
  dsimp only
  split
  · exact onPlayCard_noted rule ask hc pos _
  · exact Quiet.noted (.refl s) hc
  · exact Quiet.noted (.of_table fun _ => List.prefix_rfl) hc
  · exact onGrabCard_noted rule ask hc pos _ _
  · exact Quiet.noted (.refl s) hc

/-- What an event that begins no round does. -/
lemma handle_noted {asked : Asked} {e : Event} (hc : s.Clean)
    (h : handle rule asked s (.play e) = some s') : Noted s s' := by
  cases e with
  | clientMsg pos pkg =>
    simp only [handle] at h
    split_ifs at h
    obtain rfl := Option.some.inj h
    exact onClientMsg_noted rule asked.countHuType hc pos pkg
  | buHua turn =>
    simp only [handle] at h
    split_ifs at h
    obtain rfl := Option.some.inj h
    have hfired : Clean { s with
        table := { s.table with timers := s.table.timers.erase turn } } := hc
    exact Noted.of_table (buHua_noted rule asked.countHuType hfired turn) rfl

end Handlers

/-! ### The end of a round -/

section Settling

variable (rule : RoomRule) {asked : Asked} {s : Room}

/-- No round is played: the seats have no tiles. -/
structure Idle (s : Room) : Prop where
  state : s.curGameState ≠ .gamePlaying
  players : ∀ p, s.table.playerList p = MJPlayer.new
  going : s.table.endArgs = none

/-- The flags are kept, or they are cleared and the round is over. -/
def Settles (s s' : Room) : Prop :=
  s'.Clean ∧ (s'.hasHuaGang = s.hasHuaGang ∧ s'.hasFaFen = s.hasFaFen ∨ s'.Idle)

lemma loopTo_settles (hc : s.Clean) (hgo : s.table.endArgs = none) :
    Settles s (loopTo rule s) := by
  unfold loopTo
  split_ifs
  · refine ⟨fun p c hmem => ?_, .inr ⟨nofun, fun _ => rfl, hgo⟩⟩
    simp [clear] at hmem
  · exact ⟨hc, .inl ⟨rfl, rfl⟩⟩

lemma settle_settles (hc : s.Clean) (asked : Asked) : Settles s (settle rule asked s) := by
  unfold settle
  split
  · exact ⟨hc, .inl ⟨rfl, rfl⟩⟩
  unfold gameEnd
  dsimp only
  split
  · exact loopTo_settles rule hc rfl
  split
  · exact ⟨hc, .inl ⟨rfl, rfl⟩⟩
  split
  · exact ⟨hc, .inl ⟨rfl, rfl⟩⟩
  · exact loopTo_settles rule hc rfl

lemma loopTo_isBiXiaHu (s : Room) : (loopTo rule s).isBiXiaHu = s.isBiXiaHu := by
  unfold loopTo
  split_ifs <;> rfl

/-- The flag after a round that is not drawn is written, and otherwise stays. -/
lemma settle_isBiXiaHu (asked : Asked) (s : Room) : (settle rule asked s).isBiXiaHu =
    match finished rule asked s with
    | none => s.isBiXiaHu
    | some args =>
      if args.isLiuJu then s.isBiXiaHu else biXiaHu rule asked.evaluate s args.winnerPosList := by
  unfold settle finished
  cases s.table.endArgs with
  | none => rfl
  | some args =>
    unfold gameEnd
    dsimp only
    by_cases hliu : args.isLiuJu = true
    · simp only [hliu, if_true, loopTo_isBiXiaHu, Option.filter_some, Bool.true_or]
    · by_cases hstop : asked.stops = true
      · simp [hliu, hstop, Option.filter_some]
      · cases hmoney : calculateMoney rule s.accounts.leftMoney asked.evaluate args with
        | none => simp [hliu, hstop, hmoney, Option.filter_some]
        | some money =>
          simp only [hliu, hstop, hmoney, Bool.false_eq_true, if_false, loopTo_isBiXiaHu,
            Option.filter_some, Option.isSome_some, Bool.and_true, Bool.not_false, Bool.or_true,
            if_true]
          rfl

/-- Flower kongs and fines count for each winner. -/
lemma biXiaHu_iff (evaluate : Seat → Evaluation) (s : Room) (winners : List Seat) :
    biXiaHu rule evaluate s winners = true ↔ (∃ pos ∈ s.banker, pos ∈ winners) ∨
      (∃ pos ∈ winners, (evaluate pos).hasGangKai = true ∨
        ((evaluate pos).baoPai rule).isSome = true) ∨
      1 < winners.length ∨ winners ≠ [] ∧ (s.hasHuaGang = true ∨ s.hasFaFen = true) ∨
      (rule.isJieZhuangBiXiaHu = true ∧ ∃ pos ∈ s.banker, winners = [nextPlayerPos pos]) := by
  have hbanker : s.banker.any (· ∈ winners) = true ↔ ∃ pos ∈ s.banker, pos ∈ winners := by
    rw [Option.any_eq_true]
    simp
  have hnext : (s.banker.any fun banker => winners == [nextPlayerPos banker]) = true ↔
      ∃ pos ∈ s.banker, winners = [nextPlayerPos pos] := by
    rw [Option.any_eq_true]
    simp
  have hloop : (winners.any fun winPos => (evaluate winPos).hasGangKai ||
      ((evaluate winPos).baoPai rule).isSome || 1 < winners.length || s.hasHuaGang ||
        s.hasFaFen) = true ↔
      (∃ pos ∈ winners, (evaluate pos).hasGangKai = true ∨
        ((evaluate pos).baoPai rule).isSome = true) ∨
      1 < winners.length ∨ winners ≠ [] ∧ (s.hasHuaGang = true ∨ s.hasFaFen = true) := by
    simp only [List.any_eq_true, Bool.or_eq_true, decide_eq_true_eq]
    constructor
    · rintro ⟨pos, hpos, (((h | h) | h) | h) | h⟩
      · exact .inl ⟨pos, hpos, .inl h⟩
      · exact .inl ⟨pos, hpos, .inr h⟩
      · exact .inr (.inl h)
      · exact .inr (.inr ⟨List.ne_nil_of_mem hpos, .inl h⟩)
      · exact .inr (.inr ⟨List.ne_nil_of_mem hpos, .inr h⟩)
    · rintro (⟨pos, hpos, h⟩ | h | ⟨hne, h⟩)
      · exact ⟨pos, hpos, .inl (.inl (.inl h))⟩
      · obtain ⟨pos, hpos⟩ := List.exists_mem_of_length_pos (by omega : 0 < winners.length)
        exact ⟨pos, hpos, .inl (.inl (.inr h))⟩
      · obtain ⟨pos, hpos⟩ := List.exists_mem_of_ne_nil _ hne
        refine ⟨pos, hpos, ?_⟩
        rcases h with h | h
        · exact .inl (.inr h)
        · exact .inr h
  unfold biXiaHu
  rw [Bool.or_eq_true, Bool.or_eq_true, Bool.and_eq_true, hbanker, hloop, hnext]
  simp only [or_assoc]

/-- A round begins without flower kongs and fines, and is doubled or not as before. -/
lemma gameBegin_flags (asked : Asked) (s : Room) (d : Deal) :
    (gameBegin rule asked s d).isBiXiaHu = s.isBiXiaHu ∧
      (gameBegin rule asked s d).curGameState = .gamePlaying ∧
      (gameBegin rule asked s d).hasHuaGang = false ∧ (gameBegin rule asked s d).hasFaFen = false ∧
      (gameBegin rule asked s d).table.riverCardList = fun _ => [] := by
  unfold gameBegin
  split_ifs <;> exact ⟨rfl, rfl, rfl, rfl, checkMyOper_river _ _ _ true⟩

end Settling

end Room

/-! ### The room that is watched -/

/-- A room, whether there has been a flower kong or a fine since its round began, and whether the
payments are to be doubled. -/
structure Watched where
  room : Room
  huaGang : Bool
  faFen : Bool
  expected : Bool

namespace Watched

open Room

/-- The event begins a round. -/
def begins : RoomEvent → Room → Bool
  | .gameStart _, s => s.curGameState = .gamePlaying
  | _, _ => false

variable (rule : RoomRule)

/-- The flower kongs of the round after an event that has been handled. -/
def huaGangAfter (w : Watched) (e : RoomEvent) (s : Room) : Bool :=
  if begins e s then false else w.huaGang || decide (w.room.MadeHuaGang s)

/-- The fines of the round after an event that has been handled. -/
def faFenAfter (w : Watched) (e : RoomEvent) (s : Room) : Bool :=
  if begins e s then false else w.faFen || decide (w.room.MadeFaFen s)

/-- A room before its first round. -/
def opened : Watched := ⟨Room.opened rule, false, false, false⟩

/-- One event of the room. -/
def watch (w : Watched) (e : Asked × RoomEvent) : Option Watched :=
  (handle rule e.1 w.room e.2).map fun s =>
    { room := settle rule e.1 s
      huaGang := w.huaGangAfter e.2 s
      faFen := w.faFenAfter e.2 s
      expected := match finished rule e.1 s with
        | none => w.expected
        | some args => Doubles rule e.1.evaluate s.banker args (w.huaGangAfter e.2 s)
            (w.faFenAfter e.2 s) }

/-- If the event ends the round, then a drawn one has been doubled itself, and one without a winner
had neither a flower kong nor a fine. -/
def Agrees (w : Watched) (e : Asked × RoomEvent) : Prop :=
  ∀ s args, handle rule e.1 w.room e.2 = some s → finished rule e.1 s = some args →
    if args.isLiuJu then w.room.isBiXiaHu = true
    else args.winnerPosList = [] → w.huaGangAfter e.2 s = false ∧ w.faFenAfter e.2 s = false

/-- The watched room is the room. -/
lemma watch_room (w : Watched) (e : Asked × RoomEvent) :
    (watch rule w e).map Watched.room = w.room.step rule e := by
  unfold watch Room.step
  rw [Option.map_map]
  rfl

/-! ### The flags tell what has happened -/

/-- The flags of the program tell what has happened in the round, unless none is played. -/
structure Sound (w : Watched) : Prop where
  clean : w.room.Clean
  marks : w.room.hasHuaGang = w.huaGang ∧ w.room.hasFaFen = w.faFen ∨ w.room.Idle

section Steps

variable {rule} {w w' : Watched} {asked : Asked} {e : RoomEvent} {s : Room}

/-- The event before the round is settled. -/
structure Handled (w : Watched) (e : RoomEvent) (s : Room) : Prop where
  twice : s.isBiXiaHu = w.room.isBiXiaHu
  clean : s.Clean
  marks : s.hasHuaGang = w.huaGangAfter e s ∧ s.hasFaFen = w.faFenAfter e s ∨ s.Idle

/-- An event that begins no round and notes what happens. -/
lemma Sound.handled_of_noted (h : w.Sound) (hn : Noted w.room s) (hb : begins e s = false)
    (hidle : w.room.Idle → s.Idle) : w.Handled e s := by
  refine ⟨hn.twice, hn.clean, ?_⟩
  rcases h.marks with ⟨hhua, hfa⟩ | hi
  · refine .inl ⟨?_, ?_⟩
    · rw [hn.huaGang, hhua, huaGangAfter, hb]
      rfl
    · rw [hn.faFen, hfa, faFenAfter, hb]
      rfl
  · exact .inr (hidle hi)

/-- Nothing happens in a room in which no round is played, until one begins. -/
lemma idle_play {e : Event} (hi : w.room.Idle) (hs : handle rule asked w.room (.play e) = some s) :
    s.Idle := by
  cases e with
  | clientMsg pos pkg =>
    simp only [handle] at hs
    split_ifs at hs with hplay
    exact absurd hplay hi.state
  | buHua turn =>
    simp only [handle] at hs
    split_ifs at hs
    obtain rfl := Option.some.inj hs
    have hhua : ((w.room.table.playerList turn).hasHua huaList) = false := by
      rw [hi.players turn]
      rfl
    unfold Room.buHua
    dsimp only
    rw [hhua]
    exact ⟨hi.state, hi.players, hi.going⟩

lemma Sound.handled (h : w.Sound) (hs : handle rule asked w.room e = some s) : w.Handled e s := by
  cases e with
  | gameStart d =>
    simp only [handle] at hs
    split_ifs at hs with hwait
    · obtain rfl := Option.some.inj hs
      have hb : begins (.gameStart d) { w.room with isDisband := true } = false := by
        have hstate : w.room.curGameState = .waitBegin := by
          by_contra hne
          exact hwait (.inl hne)
        simp [begins, hstate]
      have hquiet : Quiet w.room { w.room with isDisband := true } :=
        ⟨rfl, rfl, rfl, rfl, fun _ => List.prefix_rfl⟩
      exact h.handled_of_noted (hquiet.noted h.clean) hb fun hi => ⟨hi.state, hi.players, hi.going⟩
    · obtain rfl := Option.some.inj hs
      obtain ⟨htwice, hstate, hhua, hfa, hriver⟩ := gameBegin_flags rule asked w.room d
      have hb : begins (.gameStart d) (gameBegin rule asked w.room d) = true := by
        simp [begins, hstate]
      refine ⟨htwice, fun p c hmem => ?_, .inl ⟨?_, ?_⟩⟩
      · rw [hriver] at hmem
        exact absurd hmem (by simp)
      · rw [hhua, huaGangAfter, if_pos hb]
      · rw [hfa, faFenAfter, if_pos hb]
  | play e =>
    exact h.handled_of_noted (handle_noted rule h.clean hs) rfl fun hi => idle_play hi hs
  | disband =>
    obtain rfl := Option.some.inj hs
    have hquiet : Quiet w.room { w.room with curGameState := .waitBegin, isDisband := true } :=
      ⟨rfl, rfl, rfl, rfl, fun _ => List.prefix_rfl⟩
    have hstate : GameState.waitBegin ≠ .gamePlaying := by decide
    exact h.handled_of_noted (hquiet.noted h.clean) rfl fun hi => ⟨hstate, hi.players, hi.going⟩

/-- **What one event preserves.** -/
lemma Sound.watch (h : w.Sound) {e : Asked × RoomEvent} (hw : watch rule w e = some w') :
    w'.Sound := by
  obtain ⟨s, hs, rfl⟩ := Option.map_eq_some_iff.mp hw
  have hh := h.handled hs
  obtain ⟨hclean, hmarks⟩ := settle_settles rule hh.clean e.1
  refine ⟨hclean, ?_⟩
  rcases hh.marks with hm | hi
  · rcases hmarks with ⟨hhua, hfa⟩ | hi
    · exact .inl ⟨hhua.trans hm.1, hfa.trans hm.2⟩
    · exact .inr hi
  · have hsettle : settle rule e.1 s = s := by
      unfold settle
      rw [hi.going]
    refine .inr ?_
    change (settle rule e.1 s).Idle
    rw [hsettle]
    exact hi

/-- The end of a round leaves the flag as the rules want it exactly if the event agrees. -/
lemma Sound.right_iff (h : w.Sound) {e : Asked × RoomEvent} (hw : Watched.watch rule w e = some w')
    (hbefore : w.room.isBiXiaHu = w.expected ∨
      ∃ s args, handle rule e.1 w.room e.2 = some s ∧ finished rule e.1 s = some args) :
    w'.room.isBiXiaHu = w'.expected ↔ Agrees rule w e := by
  obtain ⟨s, hs, rfl⟩ := Option.map_eq_some_iff.mp hw
  have hh := h.handled hs
  have hflag := settle_isBiXiaHu rule e.1 s
  have hagrees : Agrees rule w e ↔ ∀ args, finished rule e.1 s = some args →
      if args.isLiuJu then w.room.isBiXiaHu = true
      else args.winnerPosList = [] → w.huaGangAfter e.2 s = false ∧ w.faFenAfter e.2 s = false := by
    constructor
    · intro ha args
      exact ha s args hs
    · intro ha s' args hs'
      rw [hs, Option.some_inj] at hs'
      subst hs'
      exact ha args
  rw [hagrees]
  dsimp only
  rw [hflag]
  cases hfin : finished rule e.1 s with
  | none =>
    have hkeep : w.room.isBiXiaHu = w.expected := by
      rcases hbefore with hb | ⟨s', args, hs', hfin'⟩
      · exact hb
      · rw [hs, Option.some_inj] at hs'
        rw [← hs', hfin] at hfin'
        exact absurd hfin' (by simp)
    simp [hh.twice, hkeep]
  | some args =>
    have hover : s.table.endArgs ≠ none := by
      intro hnone
      rw [finished, hnone] at hfin
      exact absurd hfin (by simp)
    obtain ⟨hhua, hfa⟩ := hh.marks.resolve_right fun hi => hover hi.going
    simp only [Option.some.injEq, forall_eq']
    by_cases hliu : args.isLiuJu = true
    · have hdoubles : Doubles rule e.1.evaluate s.banker args (w.huaGangAfter e.2 s)
          (w.faFenAfter e.2 s) := .inl hliu
      simp [hliu, hdoubles, hh.twice]
    · have hcode := biXiaHu_iff rule e.1.evaluate s args.winnerPosList
      rw [hhua, hfa] at hcode
      rw [if_neg hliu, if_neg hliu, Bool.eq_iff_iff, decide_eq_true_eq, hcode, Doubles]
      by_cases hne : args.winnerPosList = []
      · simp [hliu, hne]
      · simp [hliu, hne, or_assoc]

end Steps

lemma sound_opened : (opened rule).Sound where
  clean := fun _ _ hmem => absurd hmem List.not_mem_nil
  marks := .inl ⟨rfl, rfl⟩

/-- In every run the flags of the program tell what has happened. -/
lemma sound_of_passes (es : List (Asked × RoomEvent)) :
    ∀ x ∈ Runs.passes (watch rule) (opened rule) es, x.1.Sound := by
  have hstep : ∀ w e w', w.Sound → True → watch rule w e = some w' → w'.Sound :=
    fun _ _ _ h _ hw => h.watch hw
  exact Runs.invariant_of_passes hstep (sound_opened rule) fun _ _ => trivial

/-- After every event of a run the flag is what the rules want it to be if and only if every event
agrees: no drawn round is played without being doubled, and no other ends without a winner after a
flower kong or a fine.

**Proof sketch.** The flags tell what has happened (`Sound.watch`), so that the end of a round that
is not drawn and has a winner writes what the rules want, and that of a drawn one leaves the flag
with which it was played (`Sound.right_iff`). -/
theorem isBiXiaHu_iff (rule : RoomRule) (es : List (Asked × RoomEvent)) :
    (∀ x ∈ Runs.passes (watch rule) (opened rule) es, ∀ w', watch rule x.1 x.2 = some w' →
        w'.room.isBiXiaHu = w'.expected) ↔
      ∀ x ∈ Runs.passes (watch rule) (opened rule) es, Agrees rule x.1 x.2 := by
  constructor
  · intro h x hx s args hs hfin
    have hw : watch rule x.1 x.2 = some _ := Option.map_eq_some_iff.mpr ⟨s, hs, rfl⟩
    have hiff := (sound_of_passes rule es x hx).right_iff hw (.inr ⟨s, args, hs, hfin⟩)
    exact hiff.mp (h x hx _ hw) s args hs hfin
  · intro h
    have hstep : ∀ w e w', w.Sound ∧ w.room.isBiXiaHu = w.expected → Agrees rule w e →
        watch rule w e = some w' → w'.Sound ∧ w'.room.isBiXiaHu = w'.expected :=
      fun w e w' hI ha hw => ⟨hI.1.watch hw, (hI.1.right_iff hw (.inl hI.2)).mpr ha⟩
    have hinv := Runs.invariant_of_passes hstep ⟨sound_opened rule, rfl⟩ h
    exact fun x hx w' hw => (hstep x.1 x.2 w' (hinv x hx) (h x hx) hw).2

/-! ### A drawn round -/

/-- The hand of every seat: no two tiles go together. -/
def scatteredHand : List ℕ := [1, 4, 7, 11, 14, 17, 21, 24, 27, 31, 32, 33, 34]

/-- The tiles that are drawn. -/
def drawnTiles : List ℕ :=
  wallTiles.diff (scatteredHand ++ scatteredHand ++ scatteredHand ++ scatteredHand)

/-- All seats have the same hand. -/
def drawnDeal : Deal where
  wall := scatteredHand ++ scatteredHand ++ scatteredHand ++ scatteredHand ++ drawnTiles
  perm := by decide +kernel
  banker := 0
  last := newTable
  asked := newTable_asked

/-- The byte of the clients' code for a tile that is no flower. -/
def oldByte (t : ℕ) : ℤ :=
  if t < 10 then t + 64 else if t < 20 then t + 118 else if t < 30 then t + 76 else t + 139

/-- Every seat exchanges the flowers it draws and plays the next tile. -/
def playDrawn : Seat → List ℕ → List Event
  | _, [] => []
  | pos, t :: tiles =>
    if t ∈ huaList then .buHua pos :: playDrawn pos tiles
    else .clientMsg pos ⟨10, oldByte t⟩ :: playDrawn (pos + 1) tiles

/-- The first round is drawn when the wall is used up, and the next one is played. -/
def drawnEvents : List (Asked × RoomEvent) :=
  played drawnDeal (playDrawn 0 drawnTiles) ++
    [(Room.concealed, .gameStart { drawnDeal with banker := 1 })]

/-- The round after the drawn one is not doubled. -/
theorem drawn_round_not_doubled :
    ∃ w, Runs.Reaches (watch unlimited) (fun _ _ => True) (opened unlimited) w ∧
      w.room.curGameState = .gamePlaying ∧ w.room.accounts.roundCount = 2 ∧
      w.expected = true ∧ w.room.isBiXiaHu = false := by
  have hrun : ((Runs.exec (watch unlimited) (fun _ _ => True) (opened unlimited)
      drawnEvents).any fun w => decide (w.room.curGameState = .gamePlaying) &&
        w.room.accounts.roundCount == 2 && w.expected && !w.room.isBiXiaHu) = true := by
    decide +kernel
  obtain ⟨w, hw, hfacts⟩ := (Option.any_eq_true _ _).mp hrun
  simp only [Bool.and_eq_true, Bool.not_eq_true', beq_iff_eq, decide_eq_true_eq] at hfacts
  obtain ⟨⟨⟨hstate, hround⟩, hexpected⟩, hflag⟩ := hfacts
  exact ⟨w, Runs.reaches_of_exec _ .init hw, hstate, hround, hexpected, hflag⟩

end Watched

end Nanjing
