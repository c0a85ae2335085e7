import JsmjServer.Hongzhong.Conservation
import JsmjServer.Mahjong.CountMap

set_option relaxedAutoImplicit false
set_option autoImplicit false

/-!
# Claims that keep a normal tile in hongzhong mahjong

Before `checkMyOper` and `checkOtherOper` of `hongzhongmj/game_state/GamePlaying.lua` offer a peng,
a ming gang or an an gang, they compare the tiles of the hand, without those claimed, with the
number of wild tiles, so that a tile other than a wild one is left to play. They ask
`HZMJPlayer:hasBaiDa` for this number without saying which tile is wild, and it counts none.

## Main definitions

* `Hongzhong.KeepsNormal` — without the claimed copies a tile that is not wild is left.
* `Hongzhong.WildGuard` — the guard with the number of wild tiles.

## Main results

* `Hongzhong.offer_keeps_normal_iff` — in every reachable state, an offered peng or kong keeps a
  normal tile if and only if the guard with the number of wild tiles holds.
-/

namespace Hongzhong

open Mahjong

/-- The copies of the tile that leave the hand for a peng, a kong on another seat's tile, and a
concealed kong. -/
def claimedCopies : Oper → ℕ
  | .peng => 2
  | .mg => 3
  | .ag => 4
  | _ => 0

/-- Without the claimed copies a tile that is not wild is left. -/
def KeepsNormal (player : MJPlayer) (oper : Oper) (byteCard : ℕ) : Prop :=
  ∃ x ∈ player.getAllHandCards.diff (List.replicate (claimedCopies oper) byteCard), x ≠ baiDa

/-- The guard of the offers with the number of wild tiles held: it is less than that of the tiles
left, where copies that are wild themselves leave the hand. -/
def WildGuard (player : MJPlayer) (oper : Oper) (byteCard : ℕ) : Prop :=
  hasBaiDa player (some baiDa) + (if byteCard = baiDa then 0 else claimedCopies oper) <
    player.getAllHandCards.length

instance (player : MJPlayer) (oper : Oper) (c : ℕ) : Decidable (KeepsNormal player oper c) :=
  inferInstanceAs (Decidable (∃ x ∈ _, x ≠ baiDa))

instance (player : MJPlayer) (oper : Oper) (c : ℕ) : Decidable (WildGuard player oper c) :=
  inferInstanceAs (Decidable (_ < _))

section Offers

variable {d : Deal} {s : Table} {pos : Seat} {oper : Oper} {c : ℕ} {player : MJPlayer}

/-- A list has another element than `w` if and only if it is not made of copies of `w`. -/
lemma exists_ne_iff_count_lt {l : List ℕ} {w : ℕ} : (∃ x ∈ l, x ≠ w) ↔ l.count w < l.length := by
  rw [lt_iff_le_and_ne, and_iff_right List.count_le_length, Ne, List.count_eq_length]
  push Not
  exact exists_congr fun x => and_congr_right fun _ => ne_comm

/-- Where the hand has the claimed copies, the guard decides. -/
lemma keepsNormal_iff (hc : claimedCopies oper ≤ player.getAllHandCards.count c) :
    KeepsNormal player oper c ↔ WildGuard player oper c := by
  set l := player.getAllHandCards with hl
  set k := claimedCopies oper with hk
  have hsub : (List.replicate k c).Subperm l := (List.replicate_sublist_iff.mpr hc).subperm
  have hlen : (l.diff (List.replicate k c)).length + k = l.length := by
    have := (List.subperm_append_diff_self_of_count_le fun x hx => hsub.count_le x).length_eq
    simpa [add_comm] using this
  have hcount : (l.diff (List.replicate k c)).count baiDa =
      l.count baiDa - if c = baiDa then k else 0 := by
    rw [List.count_diff, List.count_replicate]
    simp
  have hwild : hasBaiDa player (some baiDa) = l.count baiDa := hasBaiDa_eq_count player baiDa
  rw [KeepsNormal, WildGuard, exists_ne_iff_count_lt, hwild, ← hl, ← hk, hcount]
  have hle : l.count baiDa ≤ l.length := List.count_le_length
  split_ifs with hcb
  · subst hcb
    omega
  · omega

/-- The hand of a seat has the copies of every peng and every kong that it is offered. -/
lemma claimedCopies_le_count (hs : Reachable d s) (hgo : s.endArgs = none)
    (hoff : Offered s pos oper (some c)) (hoper : oper = .peng ∨ oper = .mg ∨ oper = .ag) :
    claimedCopies oper ≤ (s.playerList pos).getAllHandCards.count c := by
  have hcards : ∃ b map l, some c = some b ∧ s.playerCanDoMap pos = some map ∧
      map.cards oper = some l ∧ b ∈ l := by
    rcases hoper with rfl | rfl | rfl <;> exact hoff.2
  obtain ⟨b, map, l, hb, hmap, hl, hbl⟩ := hcards
  obtain rfl := Option.some.inj hb
  have hcancel : oper ≠ .cancel := by
    rcases hoper with rfl | rfl | rfl <;> decide
  rcases (hs.playing hgo).phase with ⟨t, ht⟩ | ⟨t, b, hclaim⟩
  · -- the seat with the turn is offered concealed kongs
    obtain rfl := ht.opers pos oper hoff.1
    obtain ⟨map', hmap', -, hmay⟩ := ht.offers
    obtain rfl := Option.some.inj (hmap.symm.trans hmap')
    obtain ⟨l', hl', hmay'⟩ := hmay oper hoff.1
    obtain rfl := Option.some.inj (hl.symm.trans hl')
    have hn : (s.playerList pos).hasNewCard = true := (ht.newCard pos).mpr rfl
    rcases hmay' hcancel c hbl with ⟨rfl, -⟩ | ⟨rfl, hcount⟩ | ⟨rfl, -⟩
    · exact absurd hoper (by decide)
    · rw [MJPlayer.getCardCountInHand_true] at hcount
      rwa [(MJPlayer.getAllHandCards_perm hn).count_eq]
    · exact absurd hoper (by decide)
  · -- the others are offered kongs and pengs on the tile of the seat
    have hne := hclaim.opers pos oper hoff.1
    obtain ⟨map', hmap', -, hmay⟩ := hclaim.offers pos hne
    obtain rfl := Option.some.inj (hmap.symm.trans hmap')
    obtain ⟨l', hl', hmay'⟩ := hmay oper hoff.1
    obtain rfl := Option.some.inj (hl.symm.trans hl')
    obtain ⟨rfl, hclaims, -⟩ := hmay' hcancel
    obtain rfl := List.mem_singleton.mp hbl
    have hhand : (s.playerList pos).getAllHandCards = (s.playerList pos).cardList := by
      rw [MJPlayer.getAllHandCards, if_neg (by simp [hclaim.newCard pos]), List.append_nil]
    rw [hhand]
    rcases hclaims with ⟨rfl, -⟩ | ⟨rfl, -, hgang⟩ | ⟨rfl, -, hpeng, -⟩
    · exact absurd hoper (by decide)
    · simp only [MJPlayer.canGang, Bool.and_eq_true, decide_eq_true_eq,
        MJPlayer.getCardCountInHand_false] at hgang
      exact hgang.2
    · simp only [MJPlayer.canPeng, Bool.and_eq_true, decide_eq_true_eq,
        MJPlayer.getCardCountInHand_false] at hpeng
      exact hpeng.2

/-- A kong or a peng on the tiles in the list of the seat is offered. -/
lemma offered_of_cards {l : List ℕ} (hoper : oper = .peng ∨ oper = .mg ∨ oper = .ag)
    (hgrab : oper ∈ s.playerGrabMgr.canGrabMgr.opers pos)
    (hl : (s.playerCanDoMap pos).bind (fun map => map.cards oper) = some l) (hc : c ∈ l) :
    Offered s pos oper (some c) := by
  obtain ⟨map, hmap, hcards⟩ := Option.bind_eq_some_iff.mp hl
  refine ⟨hgrab, ?_⟩
  rcases hoper with rfl | rfl | rfl <;> exact ⟨c, map, l, rfl, hmap, hcards, hc⟩

end Offers

section Runs

/-- **When the claims keep a normal tile**: in every state of every run, a peng, a kong on another
seat's tile or a concealed kong that is offered to a seat leaves a tile that is not wild if and only
if the seat holds fewer wild tiles than there are tiles besides the claimed ones.

**Proof sketch.** In either phase of the round the hand has the copies of what is offered
(`claimedCopies_le_count`), and without them it has a tile that is not wild if and only if it has
more tiles than wild ones (`keepsNormal_iff`). -/
theorem offer_keeps_normal_iff (d : Deal) (s : Table) (hs : Reachable d s)
    (hgo : s.endArgs = none) (pos : Seat) (oper : Oper) (c : ℕ)
    (hoff : Offered s pos oper (some c)) (hoper : oper = .peng ∨ oper = .mg ∨ oper = .ag) :
    KeepsNormal (s.playerList pos) oper c ↔ WildGuard (s.playerList pos) oper c :=
  keepsNormal_iff (claimedCopies_le_count hs hgo hoff hoper)

/-- The second seat of `robbedKong` keeps a tile that is not wild when it takes the `4` by peng. -/
theorem robbedKong_keeps_normal : ∃ s, Reachable robbedKong s ∧ Offered s 1 .peng (some 4) ∧
    KeepsNormal (s.playerList 1) .peng 4 := by
  have hrun : ((Runs.exec (step robbedKong.rule) NoTest (start robbedKong)
      (robbedMsgs.take 1)).any fun s => s.endArgs.isNone &&
        decide (.peng ∈ s.playerGrabMgr.canGrabMgr.opers 1) &&
        decide ((s.playerCanDoMap 1).bind (fun map => map.cards .peng) = some [4]) &&
        decide (WildGuard (s.playerList 1) .peng 4)) = true := by
    decide +kernel
  obtain ⟨s, hs, hend⟩ := (Option.any_eq_true _ _).mp hrun
  simp only [Bool.and_eq_true, decide_eq_true_eq, Option.isNone_iff_eq_none] at hend
  obtain ⟨⟨⟨hgo, hgrab⟩, hmap⟩, hguard⟩ := hend
  have hreach : Reachable robbedKong s := Runs.reaches_of_exec _ .init hs
  have hoff : Offered s 1 .peng (some 4) :=
    offered_of_cards (.inl rfl) hgrab hmap (List.mem_singleton.mpr rfl)
  exact ⟨s, hreach, hoff,
    (offer_keeps_normal_iff robbedKong s hreach hgo 1 .peng 4 hoff (.inl rfl)).mpr hguard⟩

/-- The hand of the banker is three tiles in four copies each and a wild tile. -/
def kongHands : List ℕ :=
  [1, 1, 1, 1, 2, 2, 2, 2, 3, 3, 3, 3, Zi5] ++
  ((wallTiles.filter fun c => decide (3 < c) && decide (c ≠ Zi5)).take 39) ++ [Zi5, Zi5, Zi5]

/-- A deal after which the banker draws the other three wild tiles. -/
def wildKong : Deal where
  rule := ⟨false, false, false, false, false⟩
  wall := kongHands ++ wallTiles.diff kongHands
  perm := by decide +kernel
  banker := 0
  last := newTable
  noTest := newTable_noTest

/-- After two concealed kongs, the banker of `wildKong` is offered the third, although only the four
wild tiles would be left. -/
theorem wildKong_all_wild : ∃ s, Reachable wildKong s ∧ s.endArgs = none ∧
    Offered s 0 .ag (some 3) ∧ ¬KeepsNormal (s.playerList 0) .ag 3 := by
  have hrun : ((Runs.exec (step wildKong.rule) NoTest (start wildKong)
      [(0, ⟨4, 65⟩), (0, ⟨4, 66⟩)]).any fun s => s.endArgs.isNone &&
        decide (.ag ∈ s.playerGrabMgr.canGrabMgr.opers 0) &&
        decide ((s.playerCanDoMap 0).bind (fun map => map.cards .ag) = some [3]) &&
        !decide (KeepsNormal (s.playerList 0) .ag 3)) = true := by
    decide +kernel
  obtain ⟨s, hs, hend⟩ := (Option.any_eq_true _ _).mp hrun
  simp only [Bool.and_eq_true, Bool.not_eq_true', decide_eq_true_eq, decide_eq_false_iff_not,
    Option.isNone_iff_eq_none] at hend
  obtain ⟨⟨⟨hgo, hgrab⟩, hmap⟩, hwild⟩ := hend
  exact ⟨s, Runs.reaches_of_exec _ .init hs, hgo,
    offered_of_cards (.inr (.inr rfl)) hgrab hmap (List.mem_singleton.mpr rfl), hwild⟩

end Runs

end Hongzhong
