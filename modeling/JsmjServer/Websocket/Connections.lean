import JsmjServer.Lib.Connections
import JsmjServer.Websocket.Tables

set_option relaxedAutoImplicit false
set_option autoImplicit false

/-!
# Connections that are closed and sockets that are used again

A gate reads many sockets. A connection may be closed between any two reads, inside a header or
inside a payload, and its socket be given to another connection. `lfilter` then calls
`close_uncomplete`, and what is read on the socket afterwards belongs to the new connection.

## Main definitions

* `Websocket.Tables.deliver` — one socket read over the tables, with the packets popped when more
  are announced.

## Main results

* `Websocket.Tables.packets_of_connections` — every connection delivers its complete frames.
-/

namespace Websocket

open Connections

namespace Tables

/-- The packets Lua gets from a result of `filter_data_`: the one returned, or those that a loop
over `lpop` takes off the array when more are announced. -/
def collect (fd : ℤ) : Result × Tables → List (ℤ × List UInt8) × Tables
  | (.none, t) => ([], t)
  | (.data packet, t) => ([(fd, packet)], t)
  | (.more, t) =>
    let r := RingBuffer.popAll t.queue.size t.queue
    (r.1, { t with queue := r.2 })
  | (.fault, t) => ([], t)

/-- One socket read after the handshake. -/
def deliver (t : Tables) (fd : ℤ) (buffer : List UInt8) : List (ℤ × List UInt8) × Tables :=
  collect fd (t.filterData fd buffer)

/-- A socket read over the tables is one over the queue. -/
lemma deliver_stands {t : Tables} {q : Queue} (h : Stands t q) (fd : ℤ) (buffer : List UInt8) :
    (t.deliver fd buffer).1 = (Websocket.deliver q fd buffer).1 ∧
      Stands (t.deliver fd buffer).2 (Websocket.deliver q fd buffer).2 := by
  obtain ⟨hresult, hstands⟩ := filterData_stands h fd buffer
  rw [deliver, Websocket.deliver]
  cases hx : t.filterData fd buffer with
  | mk r t' =>
    cases hy : Websocket.filterData q fd buffer with
    | mk r' q' =>
      rw [hx, hy] at hresult hstands
      simp only at hresult hstands
      subst hresult
      cases r with
      | none => exact ⟨rfl, hstands⟩
      | data packet => exact ⟨rfl, hstands⟩
      | fault => exact ⟨rfl, hstands⟩
      | more =>
        obtain ⟨hall, hnil⟩ := RingBuffer.popAll_eq t'.queue.length_toList.le
        exact ⟨hall.trans hstands.queue, hstands.hash, hnil⟩

end Tables

/-- Closing forgets the frame under way. -/
lemma remembers_drops : Drops Remembers Queue.takeUncomplete := by
  intro q fd b h
  refine ⟨⟨h.1, ?_⟩, fun fd' b' hne h' => ⟨h'.1, ?_⟩⟩
  · rw [Tables.hash_takeUncomplete]
    rfl
  · rw [Queue.takeUncomplete]
    simpa only [Function.update_of_ne hne] using h'.2

namespace Tables

/-- **Every connection delivers its complete frames**: sockets are read and closed in any order and
used again, their connections carry well-formed frames cut into chunks anywhere, and a connection
may be closed inside a frame. On each connection the packets are exactly the unmasked payloads of
the frames that came completely, in order.

**Proof sketch.** The calls over the tables return what those over the queue do (`deliver_stands`).
There a read receives frames (`deliver_receives`) and closing forgets the frame under way, so that
the general result on connections applies. -/
theorem packets_of_connections (frames : ℤ → List Frame × List (List Frame))
    (events : List (Connections.Event ℤ UInt8)) (hne : ∀ fd c, .chunk fd c ∈ events → c ≠ [])
    (hpresent : ∀ fd, (streams fd events).1 <+: (frames fd).1.flatMap Frame.encode)
    (hlater : ∀ fd, List.Forall₂ (fun fs bytes => bytes <+: fs.flatMap Frame.encode) (frames fd).2
      (streams fd events).2) (fd : ℤ) :
    deliveries deliver closeUncomplete fd new events =
      (delivered Frame.encode Frame.payload (frames fd).1 (streams fd events).1,
        List.zipWith (delivered Frame.encode Frame.payload) (frames fd).2
          (streams fd events).2) := by
  have hpending : ∀ fd, Pending Frame.encode Remembers events Queue.new fd [] (frames fd) :=
    fun fd => ⟨⟨rfl, rfl⟩, inside_nil _, hpresent fd, hlater fd⟩
  have hclose : ∀ (t : Tables) (q : Queue) fd, Stands t q →
      Stands (t.closeUncomplete fd) (q.takeUncomplete fd) := fun _ _ fd h => (h.find fd).2
  rw [deliveries_congr (fun _ _ fd c h => deliver_stands h fd c) hclose fd events stands_new,
    deliveries_eq deliver_receives remembers_drops inside_nil events hne
      (fun fd => ⟨[], frames fd, hpending fd⟩) (hpending fd), List.nil_append]

/-- A connection is closed inside the payload of a frame, and the next one on the socket sends a
frame: the bytes of the first are forgotten. -/
theorem maskedFrame_after_close :
    deliveries deliver closeUncomplete 7 new
      [.chunk 7 (maskedFrame.encode.take 16), .close 7, .chunk 7 maskedFrame.encode] =
        ([], [[[0x48, 0x65, 0x6c, 0x6c, 0x6f]]]) := by
  rw [packets_of_connections
    (fun fd => if fd = 7 then ([maskedFrame], [[maskedFrame]]) else ([], [])) _ ?_ ?_ ?_ 7]
  · decide
  · intro fd c hc
    simp only [List.mem_cons, Connections.Event.chunk.injEq, List.not_mem_nil, or_false,
      reduceCtorEq, false_or] at hc
    rcases hc with ⟨-, rfl⟩ | ⟨-, rfl⟩ <;> decide
  · intro fd
    by_cases hfd : fd = 7
    · subst hfd
      decide
    · have hne : ¬(7 : ℤ) = fd := fun h => hfd h.symm
      simp [streams, hfd, hne]
  · intro fd
    by_cases hfd : fd = 7
    · subst hfd
      decide
    · have hne : ¬(7 : ℤ) = fd := fun h => hfd h.symm
      simp [streams, hfd, hne]

end Tables

end Websocket
