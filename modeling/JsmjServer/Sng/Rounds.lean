import JsmjServer.Sng.Scores
import Mathlib.Data.Nat.Find

set_option relaxedAutoImplicit false
set_option autoImplicit false

/-!
# The choice of the next round

When the last room of a round has ended, `RoundMgr:onGameEnd` looks for the next round that the
kept players can fill. The round right behind takes them when they are enough; the loop over the
rounds behind that one asks for more players than are needed.

## Main definitions

* `Sng.RoundMgr.FirstFit` — the first later round that the kept players can fill.
* `Sng.RoundMgr.NextRight` — the tournament goes on with that round, or is over without one.

## Main results

* `Sng.sound_of_reaches` — the kept players are in the order of their scores in every run.
* `Sng.onGameEnd_iff` — when the tournament goes on as it is to.
* `Sng.full_round_skipped` — a round that the kept players fill exactly is skipped.
-/

namespace Sng

namespace RoundMgr

variable {m m' : RoundMgr}

/-! ### Rounds -/

/-- The first later round with a property. -/
def First (m : RoundMgr) (P : ℕ → Prop) (r : ℕ) : Prop :=
  m.roundCount < r ∧ r ≤ m.sngConfig.totalRound ∧ P r ∧
    ∀ r', m.roundCount < r' → r' < r → ¬ P r'

/-- The number of players that a round takes. -/
def openCount (m : RoundMgr) (r : ℕ) : ℕ := (m.sngConfig.round r).openCount

/-- The first later round that the kept players can fill. -/
def FirstFit (m : RoundMgr) : ℕ → Prop := m.First fun r => m.openCount r ≤ m.reservePlayer.length

/-- The rounds that the code accepts: the next one when the kept players can fill it, and those
behind it when there are more than that. -/
def Takes (m : RoundMgr) (r : ℕ) : Prop :=
  if r = m.roundCount + 1 then m.openCount r ≤ m.reservePlayer.length
  else m.openCount r < m.reservePlayer.length

/-- The tournament goes on with the round `r`, for which as many players are kept as it takes, and
none of the others has a higher score. -/
structure GoesOn (m m' : RoundMgr) (r : ℕ) : Prop where
  roundCount : m'.roundCount = r
  roundConfig : m'.roundConfig = m.sngConfig.round r
  length : m'.reservePlayer.length = m.openCount r
  best : ∃ out, m.reservePlayer = m'.reservePlayer ++ out ∧
    ∀ p ∈ m'.reservePlayer, ∀ q ∈ out, m.score q ≤ m.score p
  timers : m'.timers = m.timers ++ [.nextRound]

/-- The tournament is over. -/
structure Ends (m m' : RoundMgr) : Prop where
  playing : m'.playing = false
  playerList : m'.playerList = []
  reservePlayer : m'.reservePlayer = []
  roundCount : m'.roundCount = 1
  timers : m'.timers = m.timers

/-- What the end of the last room of a round is to do. -/
structure NextRight (m m' : RoundMgr) : Prop where
  goesOn : ∀ r, m.FirstFit r → GoesOn m m' r
  ends : (∀ r, ¬ m.FirstFit r) → Ends m m'

lemma exists_first {P : ℕ → Prop} {r : ℕ} (hr : m.roundCount < r)
    (hle : r ≤ m.sngConfig.totalRound) (hP : P r) : ∃ r, m.First P r := by
  classical
  have hex : ∃ r, m.roundCount < r ∧ P r := ⟨r, hr, hP⟩
  refine ⟨Nat.find hex, (Nat.find_spec hex).1, (Nat.find_min' hex ⟨hr, hP⟩).trans hle,
    (Nat.find_spec hex).2, fun r' hr' hlt hP' => ?_⟩
  exact Nat.find_min hex hlt ⟨hr', hP'⟩

/-! ### The parts of `onGameEnd` -/

lemma foldl_out (l : List ℕ) (m : RoundMgr) :
    ∃ playerList, l.foldl updateOutPlayerStatus m = { m with playerList := playerList } := by
  induction l generalizing m with
  | nil => exact ⟨_, rfl⟩
  | cons ref l ih => exact ih (m.updateOutPlayerStatus ref)

lemma removeRoom_eq (m : RoundMgr) (roomid : ℕ) :
    ∃ playerList roomList,
      m.removeRoom roomid = { m with playerList := playerList, roomList := roomList } := by
  unfold removeRoom
  split_ifs
  · obtain ⟨playerList, h⟩ := foldl_out (m.playingPlayers.filter fun ref =>
      (m.items ref).room == some roomid && !m.reservePlayer.contains ref) m
    refine ⟨playerList, m.roomList.eraseP fun room => room.roomid == roomid, ?_⟩
    dsimp only
    rw [h]
  · exact ⟨_, _, rfl⟩

lemma removeOut_eq (n : ℕ) (m : RoundMgr) :
    ∃ playerList, removeOut n m =
      { m with
        playerList := playerList
        reservePlayer := m.reservePlayer.take (m.reservePlayer.length - n) } := by
  induction n generalizing m with
  | zero =>
    refine ⟨m.playerList, ?_⟩
    rw [Nat.sub_zero, List.take_length]
    rfl
  | succ n ih =>
    rw [removeOut]
    cases hlast : m.reservePlayer.getLast? with
    | none =>
      rw [List.getLast?_eq_none_iff] at hlast
      refine ⟨m.playerList, ?_⟩
      rw [hlast, List.take_nil, ← hlast]
    | some ref =>
      obtain ⟨playerList, h⟩ := ih { m.updateOutPlayerStatus ref with
        reservePlayer := m.reservePlayer.dropLast }
      refine ⟨playerList, ?_⟩
      dsimp only
      rw [h]
      simp only [List.length_dropLast, updateOutPlayerStatus, deletePlayer]
      rw [List.dropLast_eq_take, List.take_take]
      congr 2
      omega

/-- The round that the manager stands at begins with the first of the kept players. -/
lemma goOn_eq (m : RoundMgr) :
    ∃ playerList, m.goOn =
      { m with
        playerList := playerList
        reservePlayer := m.reservePlayer.take m.roundConfig.openCount
        timers := m.timers ++ [.nextRound] } := by
  obtain ⟨playerList, h⟩ :=
    removeOut_eq (m.reservePlayer.length - m.roundConfig.openCount) m
  refine ⟨playerList, ?_⟩
  rw [goOn, h, setTimeOut]
  congr 1
  by_cases hle : m.roundConfig.openCount ≤ m.reservePlayer.length
  · rw [Nat.sub_sub_self hle]
  · rw [List.take_of_length_le (by omega), List.take_of_length_le (by omega)]

/-- The manager with a round chosen. -/
def withRound (m : RoundMgr) (r : ℕ) : RoundMgr :=
  { m with roundCount := r, roundConfig := m.sngConfig.round r }

/-- **The loop over the rounds that are left**: it goes on with the first one that takes fewer
players than are kept. -/
lemma skipRounds_spec (n : ℕ) (hn : m.roundCount + (n + 1) = m.sngConfig.totalRound) :
    (∀ r, m.First (fun r => m.openCount r < m.reservePlayer.length) r →
        skipRounds (n + 1) m = (m.withRound r).goOn) ∧
      ((∀ r, ¬ m.First (fun r => m.openCount r < m.reservePlayer.length) r) →
        skipRounds (n + 1) m = m.overRound) := by
  induction n generalizing m with
  | zero =>
    rw [skipRounds]
    have hlast : m.advance.roundCount = m.advance.sngConfig.totalRound := hn
    constructor
    · rintro r ⟨hlt, hle, hr, -⟩
      obtain rfl : r = m.roundCount + 1 := by omega
      exact if_pos hr
    · intro hnone
      have hskip : ¬ m.advance.roundConfig.openCount < m.advance.reservePlayer.length := by
        intro hr
        refine hnone (m.roundCount + 1) ⟨by omega, by omega, hr, ?_⟩
        omega
      simp only [if_neg hskip, if_pos hlast]
      rfl
  | succ n ih =>
    rw [skipRounds]
    have hmore : ¬ m.advance.roundCount = m.advance.sngConfig.totalRound := by
      change ¬ m.roundCount + 1 = m.sngConfig.totalRound
      omega
    by_cases hr : m.advance.roundConfig.openCount < m.advance.reservePlayer.length
    · have hfirst : m.First (fun r => m.openCount r < m.reservePlayer.length)
          (m.roundCount + 1) :=
        ⟨by omega, by omega, hr, by omega⟩
      simp only [if_pos hr]
      refine ⟨fun r h => ?_, fun hnone => absurd hfirst (hnone _)⟩
      obtain rfl : r = m.roundCount + 1 := by
        obtain ⟨hlt, -, -, hmin⟩ := h
        by_contra hne
        exact hmin _ (by omega) (by omega) hr
      rfl
    · simp only [if_neg hr, if_neg hmore]
      obtain ⟨hgo, hover⟩ := ih (m := m.advance) (by
        change m.roundCount + 1 + (n + 1) = m.sngConfig.totalRound
        omega)
      -- the round right behind is none of them
      have hiff : ∀ r, m.advance.First
          (fun r => m.advance.openCount r < m.advance.reservePlayer.length) r ↔
          m.First (fun r => m.openCount r < m.reservePlayer.length) r := by
        intro r
        have hcount : m.advance.roundCount = m.roundCount + 1 := rfl
        constructor
        · rintro ⟨hlt, hle, hP, hmin⟩
          refine ⟨by omega, hle, hP, fun r' hr' hlt' => ?_⟩
          by_cases heq : r' = m.roundCount + 1
          · rw [heq]
            exact hr
          · exact hmin r' (by omega) hlt'
        · rintro ⟨hlt, hle, hP, hmin⟩
          refine ⟨?_, hle, hP, fun r' hr' hlt' => hmin r' (by omega) hlt'⟩
          by_contra hge
          obtain rfl : r = m.roundCount + 1 := by omega
          exact hr hP
      refine ⟨fun r h => hgo r ((hiff r).mpr h), fun hnone => ?_⟩
      exact hover fun r h => hnone r ((hiff r).mp h)

/-- **The end of a room**: while there are others, only the room goes. With the last one the
tournament goes on with the first later round that the code accepts, and without one it is over. -/
lemma onGameEnd_spec (m : RoundMgr) (roomid : ℕ)
    (hle : m.roundCount ≤ m.sngConfig.totalRound) :
    ((m.removeRoom roomid).roomList ≠ [] → m.onGameEnd roomid = m.removeRoom roomid) ∧
      ((m.removeRoom roomid).roomList = [] →
        (∀ r, m.First m.Takes r → ∃ roundLevel, m.onGameEnd roomid =
          ({ m.removeRoom roomid with roundLevel := roundLevel }.withRound r).goOn) ∧
        ((∀ r, ¬ m.First m.Takes r) → m.onGameEnd roomid = (m.removeRoom roomid).overRound)) := by
  obtain ⟨playerList, roomList, hremove⟩ := removeRoom_eq m roomid
  have hend : m.onGameEnd roomid =
      if (m.removeRoom roomid).roomList ≠ [] then m.removeRoom roomid
      else if (m.removeRoom roomid).roundCount = (m.removeRoom roomid).sngConfig.totalRound then
        (m.removeRoom roomid).overRound
      else
        let m := { (m.removeRoom roomid).advance with roundLevel := 0 }
        if m.reservePlayer.length < m.roundConfig.openCount then
          if m.roundCount < m.sngConfig.totalRound then
            skipRounds (m.sngConfig.totalRound - m.roundCount) m
          else m.overRound
        else m.goOn := rfl
  rw [hend]
  refine ⟨fun hrooms => if_pos hrooms, fun hrooms => ?_⟩
  rw [if_neg (not_not.mpr hrooms), hremove]
  by_cases hlast : m.roundCount = m.sngConfig.totalRound
  · rw [if_pos (by exact hlast)]
    refine ⟨?_, fun _ => rfl⟩
    rintro r ⟨hlt, hr, -⟩
    omega
  rw [if_neg (by exact hlast)]
  set m₁ : RoundMgr := { ({ m with playerList := playerList, roomList := roomList } :
    RoundMgr).advance with roundLevel := 0 } with hm₁
  have hcount : m₁.roundCount = m.roundCount + 1 := rfl
  have htotal : m₁.sngConfig.totalRound = m.sngConfig.totalRound := rfl
  have hfit : m₁.reservePlayer.length < m₁.roundConfig.openCount ↔
      ¬ m.Takes (m.roundCount + 1) := by
    rw [Takes, if_pos rfl, not_le]
    rfl
  dsimp only
  by_cases htakes : m.Takes (m.roundCount + 1)
  · rw [if_neg (by rw [hfit]; exact not_not.mpr htakes)]
    have hfirst : m.First m.Takes (m.roundCount + 1) := ⟨by omega, by omega, htakes, by omega⟩
    refine ⟨fun r h => ⟨0, ?_⟩, fun hnone => absurd hfirst (hnone _)⟩
    obtain rfl : r = m.roundCount + 1 := by
      obtain ⟨hlt, -, -, hmin⟩ := h
      by_contra hne
      exact hmin _ (by omega) (by omega) htakes
    rfl
  · rw [if_pos (hfit.mpr htakes)]
    -- the rounds behind the next one
    have hiff : ∀ r, m₁.First (fun r => m₁.openCount r < m₁.reservePlayer.length) r ↔
        m.First m.Takes r := by
      intro r
      have hbehind : ∀ r, m.roundCount + 1 < r →
          (m₁.openCount r < m₁.reservePlayer.length ↔ m.Takes r) := by
        intro r hr
        rw [Takes, if_neg (by omega)]
        rfl
      constructor
      · rintro ⟨hlt, hr, hP, hmin⟩
        refine ⟨by omega, hr, (hbehind r hlt).mp hP, fun r' hr' hlt' => ?_⟩
        by_cases heq : r' = m.roundCount + 1
        · rw [heq]
          exact htakes
        · exact (hbehind r' (by omega)).not.mp (hmin r' (by omega) hlt')
      · rintro ⟨hlt, hr, hP, hmin⟩
        have hne : r ≠ m.roundCount + 1 := fun heq => htakes (heq ▸ hP)
        refine ⟨by omega, hr, (hbehind r (by omega)).mpr hP, fun r' hr' hlt' => ?_⟩
        exact (hbehind r' (by omega)).not.mpr (hmin r' (by omega) hlt')
    by_cases hmore : m₁.roundCount < m₁.sngConfig.totalRound
    · rw [if_pos hmore]
      obtain ⟨n, hn⟩ : ∃ n, m₁.sngConfig.totalRound - m₁.roundCount = n + 1 :=
        ⟨m₁.sngConfig.totalRound - m₁.roundCount - 1, by omega⟩
      obtain ⟨hgo, hover⟩ := skipRounds_spec (m := m₁) n (by omega)
      rw [hn]
      refine ⟨fun r h => ⟨0, ?_⟩, fun hnone => ?_⟩
      · rw [hgo r ((hiff r).mpr h)]
        rfl
      · rw [hover fun r h => hnone r ((hiff r).mp h)]
        rfl
    · rw [if_neg hmore]
      refine ⟨fun r h => ?_, fun _ => rfl⟩
      obtain ⟨hlt, hr, -⟩ := (hiff r).mpr h
      omega

/-! ### What holds between events -/

/-- The players that a report of scores or the distribution of rooms finds; the kept ones may be
in any order. -/
structure Placed (m : RoundMgr) : Prop where
  nodup : m.playingPlayers.Nodup
  playing_lt : ∀ ref ∈ m.playingPlayers, ref < m.made
  reserve_lt : ∀ ref ∈ m.reservePlayer, ref < m.made
  one_le : 1 ≤ m.roundCount
  roundCount_le : m.roundCount ≤ m.sngConfig.totalRound

lemma Sound.placed (h : m.Sound) : m.Placed :=
  ⟨h.nodup, h.playing_lt, h.reserve_lt, h.one_le, h.roundCount_le⟩

/-- Sorting puts the kept players in order. -/
lemma Placed.sortPlayers (h : m.Placed) (sort : ScoreSort) : (m.sortPlayers sort).Sound := by
  obtain ⟨rankList, heq⟩ := sortPlayers_eq sort m
  have hplaying := sort.perm m.score m.playingPlayers
  have hreserve := sort.perm m.score m.reservePlayer
  rw [heq]
  exact ⟨hplaying.nodup_iff.mpr h.nodup,
    fun ref href => h.playing_lt ref (hplaying.mem_iff.mp href),
    fun ref href => h.reserve_lt ref (hreserve.mem_iff.mp href), sort.pairwise _ _, h.one_le,
    h.roundCount_le⟩

lemma Placed.reserve (h : m.Placed) (scoreMap : ℕ → Option ℤ) : (m.reserve scoreMap).Placed := by
  refine ⟨h.nodup, h.playing_lt, fun ref href => ?_, h.one_le, h.roundCount_le⟩
  obtain href | href := List.mem_append.mp href
  · exact h.reserve_lt ref href
  · exact h.playing_lt ref (List.mem_filter.mp href).1

lemma Sound.updateScore (h : m.Sound) (sort : ScoreSort) (scoreMap : ℕ → Option ℤ) (roomid : ℕ) :
    (m.updateScore sort scoreMap roomid).1.Sound := by
  unfold RoundMgr.updateScore
  cases m.getRoom roomid with
  | none => exact h
  | some roomInfo =>
    dsimp only
    set m₀ : RoundMgr := { m with roomList := countGame roomid m.roomList }
    obtain ⟨-, -, items, rankList, hframe⟩ :=
      addScores_spec scoreMap (m := m₀) (l := m.playingPlayers) h.nodup
    have hadded : (addScores scoreMap m.playingPlayers m₀).1.Placed := by
      rw [hframe]
      exact ⟨h.nodup, h.playing_lt, h.reserve_lt, h.one_le, h.roundCount_le⟩
    split_ifs
    · exact (hadded.reserve scoreMap).sortPlayers sort
    · exact hadded.sortPlayers sort

/-- A round that the kept players have got to. -/
lemma Sound.goOn (h : m.Sound) : m.goOn.Sound := by
  obtain ⟨playerList, heq⟩ := goOn_eq m
  rw [heq]
  exact ⟨h.nodup, h.playing_lt, fun ref href => h.reserve_lt ref (List.mem_of_mem_take href),
    h.sorted.sublist (List.take_sublist _ _), h.one_le, h.roundCount_le⟩

lemma Sound.overRound (h : m.Sound) : m.overRound.Sound :=
  ⟨h.nodup, h.playing_lt, nofun, List.Pairwise.nil, le_refl 1, h.one_le.trans h.roundCount_le⟩

lemma Sound.removeRoom (h : m.Sound) (roomid : ℕ) : (m.removeRoom roomid).Sound := by
  obtain ⟨playerList, roomList, heq⟩ := removeRoom_eq m roomid
  rw [heq]
  exact ⟨h.nodup, h.playing_lt, h.reserve_lt, h.sorted, h.one_le, h.roundCount_le⟩

lemma Sound.onGameEnd (h : m.Sound) (roomid : ℕ) : (m.onGameEnd roomid).Sound := by
  obtain ⟨hmore, hlast⟩ := onGameEnd_spec m roomid h.roundCount_le
  have hremoved := h.removeRoom roomid
  by_cases hrooms : (m.removeRoom roomid).roomList = []
  swap
  · rw [hmore hrooms]
    exact hremoved
  obtain ⟨hgo, hover⟩ := hlast hrooms
  by_cases hnext : ∃ r, m.First m.Takes r
  · obtain ⟨r, hr⟩ := hnext
    obtain ⟨roundLevel, heq⟩ := hgo r hr
    obtain ⟨playerList, roomList, hremove⟩ := removeRoom_eq m roomid
    have hle : r ≤ (m.removeRoom roomid).sngConfig.totalRound := by
      rw [hremove]
      exact hr.2.1
    rw [heq]
    refine Sound.goOn ⟨hremoved.nodup, hremoved.playing_lt, hremoved.reserve_lt, hremoved.sorted,
      ?_, hle⟩
    exact h.one_le.trans hr.1.le
  · rw [hover fun r hr => hnext ⟨r, hr⟩]
    exact hremoved.overRound

/-- The loop with which a round begins. -/
lemma foldl_setScore (l : List ℕ) (m : RoundMgr) :
    ∃ items rankList, l.foldl (fun m ref => (m.setScore ref (m.firstScore ref)).refresh ref) m =
      { m with items := items, rankList := rankList } := by
  induction l generalizing m with
  | nil => exact ⟨_, _, rfl⟩
  | cons ref l ih => exact ih ((m.setScore ref (m.firstScore ref)).refresh ref)

lemma Sound.beginRound (h : m.Sound) (playerList : List ℕ) : (m.beginRound playerList).Sound := by
  unfold RoundMgr.beginRound
  obtain ⟨items, rankList, heq⟩ := foldl_setScore playerList
    { m with playing := true, playingPlayers := [], roundLevel := 0 }
  dsimp only
  rw [heq]
  split_ifs
  all_goals exact ⟨List.nodup_nil, nofun, nofun, List.Pairwise.nil, h.one_le, h.roundCount_le⟩

lemma Sound.allocPlayer (h : m.Sound) (roomid ref : ℕ) : (m.allocPlayer roomid ref).Sound := by
  have hscore : ∀ q < m.made, (m.allocPlayer roomid ref).score q = m.score q := by
    intro q hq
    simp only [RoundMgr.allocPlayer, score]
    rw [Function.update_of_ne (by omega)]
    by_cases heq : q = ref
    · rw [heq, Function.update_self]
    · rw [Function.update_of_ne heq]
  refine ⟨?_, fun q hq => ?_, fun q hq => Nat.lt_succ_of_lt (h.reserve_lt q hq), ?_, h.one_le,
    h.roundCount_le⟩
  · refine h.nodup.append (List.nodup_singleton _) (List.disjoint_singleton.mpr fun hmem => ?_)
    exact absurd (h.playing_lt _ hmem) (lt_irrefl _)
  · obtain hq | hq := List.mem_append.mp hq
    · exact Nat.lt_succ_of_lt (h.playing_lt q hq)
    · rw [List.mem_singleton.mp hq]
      exact Nat.lt_succ_self _
  · refine h.sorted.imp_of_mem fun {p q} hp hq hle => ?_
    rw [hscore p (h.reserve_lt p hp), hscore q (h.reserve_lt q hq)]
    exact hle

lemma Sound.allocRooms (rooms : List (ℕ × ℕ)) {players : List ℕ} (h : m.Sound)
    (halloc : RoundMgr.allocRooms rooms players m = some m') : m'.Sound := by
  induction rooms generalizing players m with
  | nil =>
    rw [RoundMgr.allocRooms] at halloc
    split_ifs at halloc
    obtain rfl := Option.some.inj halloc
    exact h
  | cons room rooms ih =>
    rw [RoundMgr.allocRooms] at halloc
    split_ifs at halloc
    refine ih ?_ halloc
    have hseated : ∀ (l : List ℕ) (m : RoundMgr), m.Sound →
        (l.foldl (RoundMgr.allocPlayer · room.1) m).Sound := by
      intro l
      induction l with
      | nil => exact fun m h => h
      | cons ref l ih => exact fun m h => ih _ (h.allocPlayer room.1 ref)
    exact hseated _ _ ⟨h.nodup, h.playing_lt, h.reserve_lt, h.sorted, h.one_le, h.roundCount_le⟩

lemma Sound.firstRound (h : m.Sound) : m.firstRound.Sound := by
  unfold RoundMgr.firstRound
  refine Sound.beginRound ?_ _
  exact ⟨h.nodup, h.playing_lt, h.reserve_lt, h.sorted, h.one_le, h.roundCount_le⟩

lemma Sound.allocRoom (h : m.Sound) {rooms : List (ℕ × ℕ)} {playerList : List ℕ}
    (halloc : m.allocRoom rooms playerList = some m') : m'.Sound := by
  refine Sound.allocRooms rooms ?_ halloc
  exact ⟨h.nodup, h.playing_lt, h.reserve_lt, h.sorted, h.one_le, h.roundCount_le⟩

lemma Sound.runTimer (h : m.Sound) {timer : Timer} (hrun : m.runTimer timer = some m') :
    m'.Sound := by
  unfold RoundMgr.runTimer at hrun
  split_ifs at hrun
  obtain rfl := Option.some.inj hrun
  exact ⟨h.nodup, h.playing_lt, h.reserve_lt, h.sorted, h.one_le, h.roundCount_le⟩

lemma Sound.step (h : m.Sound) (sort : ScoreSort) {e : Event} (hstep : m.step sort e = some m') :
    m'.Sound := by
  cases e with
  | updateScore scoreMap roomid =>
    obtain rfl := Option.some.inj hstep
    exact h.updateScore sort scoreMap roomid
  | onGameEnd roomid =>
    obtain rfl := Option.some.inj hstep
    exact h.onGameEnd roomid
  | firstRound =>
    obtain ⟨m₁, hrun, rfl⟩ := Option.map_eq_some_iff.mp hstep
    exact (h.runTimer hrun).firstRound
  | nextRound =>
    obtain ⟨m₁, hrun, rfl⟩ := Option.map_eq_some_iff.mp hstep
    exact (h.runTimer hrun).beginRound _
  | allocRoom rooms playerList =>
    obtain ⟨m₁, hrun, halloc⟩ := Option.bind_eq_some_iff.mp hstep
    exact (h.runTimer hrun).allocRoom halloc
  | checkCutScore =>
    obtain rfl := Option.some.inj hstep
    exact ⟨h.nodup, h.playing_lt, h.reserve_lt, h.sorted, h.one_le, h.roundCount_le⟩

end RoundMgr

/-- What holds between events holds in every run, whatever the rooms report. -/
theorem sound_of_reaches (sort : ScoreSort) {m₀ m : RoundMgr} (h₀ : m₀.Sound)
    (h : Runs.Reaches (fun m => m.step sort) (fun _ _ => True) m₀ m) : m.Sound :=
  h.invariant h₀ fun _ _ _ hsound _ hstep => hsound.step sort hstep

/-! ### The next round -/

/-- **The tournament goes on with the first later round that the kept players can fill, and with
the best of them, exactly when that round comes right behind the last one or takes fewer players
than are kept**; that includes the case that there is none, in which the tournament is over.

**Proof sketch.** The code goes on with the first later round that it accepts
(`RoundMgr.onGameEnd_spec`), and all that it accepts can be filled. So it goes on with the first one
that can be filled when it accepts that one, and otherwise with another one or none. The kept
players are in the order of their scores, and those who are too many go from the end. -/
theorem onGameEnd_iff {m : RoundMgr} (h : m.Sound) (roomid : ℕ)
    (hrooms : (m.removeRoom roomid).roomList = []) :
    m.NextRight (m.onGameEnd roomid) ↔ ∀ r, m.FirstFit r →
      r = m.roundCount + 1 ∨ m.openCount r < m.reservePlayer.length := by
  obtain ⟨hgo, hover⟩ := (RoundMgr.onGameEnd_spec m roomid h.roundCount_le).2 hrooms
  obtain ⟨playerList, roomList, hremove⟩ := RoundMgr.removeRoom_eq m roomid
  have hfits : ∀ r, m.Takes r → m.openCount r ≤ m.reservePlayer.length := by
    intro r hr
    unfold RoundMgr.Takes at hr
    split_ifs at hr
    · exact hr
    · exact hr.le
  constructor
  · intro hright r hr
    have hgoes := hright.goesOn r hr
    by_contra hnot
    rw [not_or] at hnot
    have hskips : ¬ m.Takes r := by
      rw [RoundMgr.Takes, if_neg hnot.1]
      exact hnot.2
    have h2 : 2 ≤ r := by
      have := hr.1
      have := h.one_le
      omega
    by_cases hnext : ∃ r', m.First m.Takes r'
    · obtain ⟨r', hr'⟩ := hnext
      obtain ⟨roundLevel, heq⟩ := hgo r' hr'
      obtain ⟨players, hfinal⟩ :=
        RoundMgr.goOn_eq ({ m.removeRoom roomid with roundLevel := roundLevel }.withRound r')
      have hcount := hgoes.roundCount
      rw [heq, hfinal] at hcount
      change r' = r at hcount
      exact hskips (hcount ▸ hr'.2.2.1)
    · have hcount := hgoes.roundCount
      rw [hover fun r' hr' => hnext ⟨r', hr'⟩] at hcount
      change 1 = r at hcount
      omega
  · intro hall
    have hfirst : ∀ r, m.FirstFit r → m.First m.Takes r := by
      rintro r hr
      refine ⟨hr.1, hr.2.1, ?_, fun r' hr' hlt htakes => hr.2.2.2 r' hr' hlt (hfits r' htakes)⟩
      unfold RoundMgr.Takes
      split_ifs with hnext
      · exact hr.2.2.1
      · exact (hall r hr).resolve_left hnext
    constructor
    · intro r hr
      obtain ⟨roundLevel, heq⟩ := hgo r (hfirst r hr)
      obtain ⟨players, hfinal⟩ :=
        RoundMgr.goOn_eq ({ m.removeRoom roomid with roundLevel := roundLevel }.withRound r)
      have hreserve : (m.onGameEnd roomid).reservePlayer =
          m.reservePlayer.take (m.openCount r) := by
        rw [heq, hfinal, hremove]
        rfl
      refine ⟨?_, ?_, ?_, ⟨m.reservePlayer.drop (m.openCount r), ?_, ?_⟩, ?_⟩
      · rw [heq, hfinal]
        rfl
      · rw [heq, hfinal, hremove]
        rfl
      · rw [hreserve, List.length_take_of_le hr.2.2.1]
      · rw [hreserve, List.take_append_drop]
      · intro p hp q hq
        have hsorted := h.sorted
        rw [← List.take_append_drop (m.openCount r) m.reservePlayer, List.pairwise_append]
          at hsorted
        rw [hreserve] at hp
        exact hsorted.2.2 p hp q hq
      · rw [heq, hfinal, hremove]
        rfl
    · intro hnone
      have hno : ∀ r, ¬ m.First m.Takes r := by
        rintro r ⟨hlt, hle, htakes, -⟩
        obtain ⟨r', hr'⟩ := RoundMgr.exists_first (P := fun r => m.openCount r ≤
          m.reservePlayer.length) hlt hle (hfits r htakes)
        exact hnone r' hr'
      rw [hover hno, hremove]
      exact ⟨rfl, rfl, rfl, rfl, rfl⟩

/-- A tournament whose rounds take eight, six, three and two players, after the last game of the
first round, with some players kept. -/
def afterFirstRound (reservePlayer : List ℕ) : RoundMgr where
  sngConfig := ⟨100, 4, [⟨8, 1, [50]⟩, ⟨6, 1, [50]⟩, ⟨3, 1, [50]⟩, ⟨2, 1, [50]⟩], rfl⟩
  items ref := ⟨ref + 1, 200 - ref, some 7⟩
  made := 8
  playing := true
  playerList := [0, 1, 2, 3, 4, 5, 6, 7]
  roomList := [⟨7, 2⟩]
  reservePlayer := reservePlayer
  playingPlayers := [0, 1, 2, 3, 4, 5, 6, 7]
  roundConfig := ⟨8, 1, [50]⟩
  cutScore := 50

lemma sound_afterFirstRound (reservePlayer : List ℕ) (hlt : ∀ ref ∈ reservePlayer, ref < 8)
    (hsorted : reservePlayer.Pairwise (· < ·)) : (afterFirstRound reservePlayer).Sound where
  nodup := List.nodup_range (n := 8)
  playing_lt := fun ref href => (List.mem_range.mp href : ref < 8)
  reserve_lt := hlt
  sorted := hsorted.imp fun {p q} hpq => by
    simp only [afterFirstRound, RoundMgr.score]
    omega
  one_le := le_refl 1
  roundCount_le := Nat.le_of_ble_eq_true rfl

/-- Four players are kept. The second round takes six, and the best three go on to the third. -/
theorem best_three_go_on :
    (afterFirstRound [0, 2, 3, 6]).GoesOn ((afterFirstRound [0, 2, 3, 6]).onGameEnd 7) 3 := by
  have hsound := sound_afterFirstRound [0, 2, 3, 6] (by decide) (by decide)
  have hfit : (afterFirstRound [0, 2, 3, 6]).FirstFit 3 := by
    refine ⟨by decide, by decide, by decide, fun r' hlt hlt' => ?_⟩
    obtain rfl : r' = 2 := by
      change 1 < r' at hlt
      omega
    decide
  refine ((onGameEnd_iff hsound 7 (by decide)).mpr fun r hr => .inr ?_).goesOn 3 hfit
  obtain ⟨hlt, hle, hr, hmin⟩ := hr
  change 1 < r at hlt
  change r ≤ 4 at hle
  obtain rfl | rfl | rfl : r = 2 ∨ r = 3 ∨ r = 4 := by omega
  · exact absurd hr (by decide)
  · decide
  · decide

/-- Three players are kept. The second round takes six; the third takes three, and is skipped. -/
theorem full_round_skipped :
    ¬ (afterFirstRound [0, 2, 3]).NextRight ((afterFirstRound [0, 2, 3]).onGameEnd 7) := by
  intro h
  have hfit : (afterFirstRound [0, 2, 3]).FirstFit 3 := by
    refine ⟨by decide, by decide, by decide, fun r' hlt hlt' => ?_⟩
    obtain rfl : r' = 2 := by
      change 1 < r' at hlt
      omega
    decide
  exact absurd (h.goesOn 3 hfit).roundCount (by decide)

end Sng
