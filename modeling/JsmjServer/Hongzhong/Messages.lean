import JsmjServer.Hongzhong.Conservation

set_option relaxedAutoImplicit false
set_option autoImplicit false

/-!
# Client messages in hongzhong mahjong

Which messages a client may send without harm. A message whose operation is not offered changes
nothing; but when the byte of the message denotes no tile, the log lines of `onPlayCard` and
`onGrabCard` concatenate `nil`, and the handler stops with a runtime error.

## Main definitions

* `Hongzhong.Harmless` — the message is handled to its end, and changes nothing that is not offered.

## Main results

* `Hongzhong.harmless_iff` — exactly when a message is harmless.
-/

namespace Hongzhong

open Mahjong

/-- The message is handled without a runtime error, and when its operation, with its tile, is not
offered to the seat, the table stays as it was. -/
def Harmless (rule : RoomRuleMap) (s : Table) (pos : Seat) (pkg : ClientMsg) : Prop :=
  ∃ s', onClientMsg rule s pos pkg = .ok s' ∧ (¬OfferedMsg s pos pkg → s' = s)

/-- **Harmless messages.** In every state of a running round, for every seat and every message, the
message is harmless iff its byte denotes a tile, or it does not play a tile and its operation is to
cancel or is not open to the seat.

**Proof sketch.** By `onClientMsg_spec` a message on a state of a run stops the handler in exactly
the remaining cases; otherwise it is handled to its end, and the table is changed only by an
operation that is open, with a tile of its offer. -/
theorem harmless_iff (d : Deal) (s : Table) (hs : Reachable d s) (hgo : s.endArgs = none)
    (pos : Seat) (pkg : ClientMsg) (hnt : Oper.ofCode pkg.operation ≠ some .testNeedCard) :
    Harmless d.rule s pos pkg ↔
      fromOld2NowCardByteMap pkg.card_bytes ≠ none ∨
        (Oper.ofCode pkg.operation ≠ some .play ∧
          ∀ oper, Oper.ofCode pkg.operation = some oper →
            oper = .cancel ∨ oper ∉ s.playerGrabMgr.canGrabMgr.opers pos) := by
  have hcond : (fromOld2NowCardByteMap pkg.card_bytes ≠ none ∨
        (Oper.ofCode pkg.operation ≠ some .play ∧
          ∀ oper, Oper.ofCode pkg.operation = some oper →
            oper = .cancel ∨ oper ∉ s.playerGrabMgr.canGrabMgr.opers pos)) ↔
      ¬Stops s pos pkg := by
    unfold Stops
    rw [not_and_or, not_or]
    refine or_congr Iff.rfl (and_congr Iff.rfl ?_)
    simp only [not_exists, not_and]
    refine forall_congr' fun oper => forall_congr' fun _ => ?_
    rw [or_iff_not_imp_left]
  rw [hcond]
  rcases onClientMsg_spec (hs.playing hgo) pkg hnt with ⟨hstop, herr⟩ | ⟨hgo', s', hs', -, hsame⟩
  · refine iff_of_false ?_ (not_not.mpr hstop)
    rintro ⟨s', hs', -⟩
    rw [herr] at hs'
    simp at hs'
  · exact iff_of_true ⟨s', hs', hsame⟩ hgo'

/-- A seat that is not on turn sends a byte that denotes no tile: a choice to cancel is ignored, and
an attempt to play a tile stops the handler. -/
theorem robbedKong_messages :
    Harmless robbedKong.rule (start robbedKong) 1 ⟨11, 0⟩ ∧
      ¬Harmless robbedKong.rule (start robbedKong) 1 ⟨10, 0⟩ := by
  have hgo := (start_playing robbedKong).going
  constructor
  · rw [harmless_iff robbedKong (start robbedKong) .init hgo 1 ⟨11, 0⟩ (by decide)]
    right
    refine ⟨by decide, fun oper hoper => Or.inl ?_⟩
    have hcancel : Oper.ofCode 11 = some .cancel := by decide
    exact Option.some.inj (hoper.symm.trans hcancel)
  · rw [harmless_iff robbedKong (start robbedKong) .init hgo 1 ⟨10, 0⟩ (by decide)]
    rintro (h | ⟨h, -⟩)
    · exact h (by decide)
    · exact h (by decide)

/-- Any seat stops the handler by playing a tile with a byte that denotes none. -/
theorem playNothing_stops : ¬∀ (d : Deal) (s : Table), Reachable d s → s.endArgs = none →
    ∀ (pos : Seat) (pkg : ClientMsg), Oper.ofCode pkg.operation ≠ some .testNeedCard →
      Oper.ofCode pkg.operation ≠ some .syncData → Harmless d.rule s pos pkg := by
  intro h
  obtain ⟨s', hs', -⟩ := h robbedKong (start robbedKong) .init (start_playing robbedKong).going 1
    ⟨10, 0⟩ (by decide) (by decide)
  have herr : onClientMsg robbedKong.rule (start robbedKong) 1 ⟨10, 0⟩ =
      .error (start robbedKong) := rfl
  rw [herr] at hs'
  simp at hs'

end Hongzhong
