import JsmjServer.Hongzhong.Draws
import JsmjServer.Nanjing.Draws

set_option relaxedAutoImplicit false
set_option autoImplicit false

/-!
# The tiles that players draw

The two games put together: outside of the environment `develop` no message chooses a tile.

## Main results

* `Mahjong.draws_from_front` — every tile handed out is the front of the wall, and does not depend
  on messages that are no operations of the game.
* `Mahjong.asked_tile_drawn` — where the debug operation is let through, a client chooses its draw.
-/

namespace Mahjong

open Table

/-- **No client chooses its draw**, in both games and whatever is sent, in every environment other
than `develop`: from one table of a round to the next nothing is handed out or the front of the wall
is; no request for a tile is left for the next round; and the table depends on the operations of the
game only.

**Proof sketch.** The room drops the debug operation, so that a request for a tile is never made,
and without one `takeCard` gives the front of the wall. Every handler ends in at most one call of
`giveNewCard` on a table with the wall it began with. Of the other messages each leaves the table
as it is. -/
theorem draws_from_front (runenv : Option String) (hrun : runenv.getD "product" ≠ "develop") :
    (∀ (d : Hongzhong.Deal) (msgs : List (Seat × ClientMsg)),
      let next := Hongzhong.next d.rule runenv
      (msgs.scanl next (Hongzhong.start d)).IsChain DealsFront ∧
        (∀ p, (msgs.foldl next (Hongzhong.start d)).testPlayerNeedCard p = none) ∧
        ∀ msgs' : List (Seat × ClientMsg),
          msgs'.filter (fun e => isGameOper e.2) = msgs.filter (fun e => isGameOper e.2) →
          msgs'.foldl next (Hongzhong.start d) = msgs.foldl next (Hongzhong.start d)) ∧
    ∀ (gameProgress : Nanjing.GameProgress) (d : Nanjing.Deal)
      (es : List (Nanjing.GameProgress × Nanjing.Event)),
      (∀ p, d.last.testPlayerNeedCard p = none) →
      let next := Nanjing.next runenv
      (es.scanl next (Nanjing.onEntry gameProgress d)).IsChain DealsFront ∧
        (∀ p, (es.foldl next (Nanjing.onEntry gameProgress d)).testPlayerNeedCard p = none) ∧
        ∀ es' : List (Nanjing.GameProgress × Nanjing.Event),
          es'.filter Nanjing.isGameEvent = es.filter Nanjing.isGameEvent →
          es'.foldl next (Nanjing.onEntry gameProgress d) =
            es.foldl next (Nanjing.onEntry gameProgress d) := by
  constructor
  · intro d msgs next
    have hdealt : ∀ (s : Table) e, ((∀ c ∈ s.mjWall, MJCard.isValid c = true) ∧
        ∀ p, s.testPlayerNeedCard p = none) → s.Dealt (next s e) := fun s e h =>
      Hongzhong.next_dealt hrun e h.1 h.2
    obtain ⟨hchain, -, hneed⟩ := Runs.isChain_scanl next
      (fun s e h => ⟨(hdealt s e h).legal, (hdealt s e h).need⟩)
      (fun s e h => (hdealt s e h).front) msgs (Hongzhong.start_undrawn d)
    refine ⟨hchain, hneed, fun msgs' hsame => ?_⟩
    have hfilter := Runs.foldl_filter next (fun e => isGameOper e.2)
      (Hongzhong.next_of_not_isGameOper hrun)
    rw [← hfilter msgs', hsame, hfilter]
  · intro gameProgress d es hlast next
    have hdealt : ∀ (s : Table) e, ((∀ c ∈ s.mjWall, MJCard.isValid c = true) ∧
        ∀ p, s.testPlayerNeedCard p = none) → s.Dealt (next s e) := fun s e h =>
      Nanjing.next_dealt hrun e h.1 h.2
    obtain ⟨hchain, -, hneed⟩ := Runs.isChain_scanl next
      (fun s e h => ⟨(hdealt s e h).legal, (hdealt s e h).need⟩)
      (fun s e h => (hdealt s e h).front) es (Nanjing.onEntry_undrawn gameProgress d hlast)
    refine ⟨hchain, hneed, fun es' hsame => ?_⟩
    have hfilter := Runs.foldl_filter next Nanjing.isGameEvent
      (Nanjing.next_of_not_isGameEvent hrun)
    rw [← hfilter es', hsame, hfilter]

/-- In the default environment a request for the tile `29` and one for the state change nothing of
what is dealt; and a flower drawn after a kong is exchanged for the front of the wall. -/
theorem draws_from_front_product :
    (([(1, ⟨16, 105⟩), (0, ⟨10, 73⟩)] : List (Seat × ClientMsg)).foldl
        (Hongzhong.next Hongzhong.robbedKong.rule none) (Hongzhong.start Hongzhong.robbedKong) =
      ([(3, ⟨14, 0⟩), (0, ⟨10, 73⟩)] : List (Seat × ClientMsg)).foldl
        (Hongzhong.next Hongzhong.robbedKong.rule none) (Hongzhong.start Hongzhong.robbedKong)) ∧
    ((Nanjing.flowerEvents false).scanl (Nanjing.next none)
      (Nanjing.onEntry Nanjing.noWin Nanjing.flowerDeal)).IsChain DealsFront := by
  have hrun : (none : Option String).getD "product" ≠ "develop" := by decide
  constructor
  · exact ((draws_from_front none hrun).1 Hongzhong.robbedKong _).2.2 _ rfl
  · exact ((draws_from_front none hrun).2 Nanjing.noWin Nanjing.flowerDeal _ fun _ => rfl).1

/-- The playing state itself accepts the debug operation: the second seat asks for the tile `29`,
the banker plays `9`, and the second seat draws `29` while `17` is in front of the wall. Without
the request it draws `17`. -/
theorem asked_tile_drawn :
    let rule := Hongzhong.robbedKong.rule
    let s₀ := Hongzhong.start Hongzhong.robbedKong
    let s := (Hongzhong.onClientMsg rule s₀ 1 ⟨16, 105⟩).state
    let s' := (Hongzhong.onClientMsg rule s 0 ⟨10, 73⟩).state
    s.mjWall.head? = some 17 ∧ s'.drawn 1 = some 29 ∧ ¬DealsFront s s' ∧
      (Hongzhong.onClientMsg rule s₀ 0 ⟨10, 73⟩).state.drawn 1 = some 17 := by
  intro rule s₀ s s'
  have hfront : s.mjWall.head? = some 17 := by decide +kernel
  have hdrawn : s'.drawn 1 = some 29 := by decide +kernel
  have hbefore : s.drawn 1 = none := by decide +kernel
  have hlen : s'.mjWall.length = s.mjWall.length := by decide +kernel
  refine ⟨hfront, hdrawn, ?_, by decide +kernel⟩
  rintro (⟨-, hkept⟩ | ⟨turn, c, hwall, -, -⟩)
  · rcases hkept 1 with hnone | hsame
    · rw [hdrawn] at hnone
      exact Option.some_ne_none 29 hnone
    · rw [drawn_congr hsame, hbefore] at hdrawn
      exact Option.some_ne_none 29 hdrawn.symm
  · have hshort := congrArg List.length hwall
    rw [List.length_cons] at hshort
    omega

end Mahjong
