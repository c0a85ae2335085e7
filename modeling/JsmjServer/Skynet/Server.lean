import JsmjServer.Lib.RingBuffer
import Mathlib.Logic.Function.Basic

set_option relaxedAutoImplicit false
set_option autoImplicit false

/-!
# The message queues of skynet

How a message comes from a sender to its service: the queue that every service has, in
`skynet-src/skynet_mq.c`, the global queue of the queues that have work, and what the threads do
with them in `skynet_context_new`, `skynet_context_push`, `skynet_context_message_dispatch` and
`skynet_context_release` of `skynet-src/skynet_server.c` and `skynet_handle_retire` of
`skynet-src/skynet_handle.c`.

## Main definitions

* `Skynet.MessageQueue` — the queue of a service.
* `Skynet.Thread` — where a thread is, from one lock to the next.
* `Skynet.Server` — the queues, the services and the threads.
* `Skynet.Server.step` — one event; there is no next state when freed memory is used or an
  assertion fails.

## Design

A thread goes from one point where it takes a lock or changes a reference count to the next in one
step, and the steps of the threads come in any order. A service, its queue and its handle have one
number: the 24 bits of the handles have not come round. A thread that has done its task becomes a
worker, so that there may be any number of them. The weight of a worker comes with its step.
-/

namespace Skynet

/-! ### Queues -/

/-- `MQ_OVERLOAD`. -/
def mqOverload : ℕ := 1024

/-- `struct message_queue`. -/
structure MessageQueue (μ : Type*) where
  queue : RingBuffer μ
  inGlobal : Bool
  release : Bool
  overload : ℕ
  overloadThreshold : ℕ

namespace MessageQueue

variable {μ : Type*} [Inhabited μ]

/-- `skynet_mq_create`. -/
def create : MessageQueue μ := ⟨.new 64 (by decide), true, false, 0, mqOverload⟩

/-- `skynet_mq_length`. -/
def length (q : MessageQueue μ) : ℕ := q.queue.size

/-- The threshold behind the loop of `skynet_mq_pop`, with fuel for its turns. -/
def raiseThreshold (length : ℕ) : ℕ → ℕ → ℕ
  | 0, threshold => threshold
  | fuel + 1, threshold =>
    if length > threshold then raiseThreshold length fuel (threshold * 2) else threshold

/-- `skynet_mq_pop`. -/
def pop (q : MessageQueue μ) : Option μ × MessageQueue μ :=
  match q.queue.pop with
  | none => (none, { q with inGlobal := false, overloadThreshold := mqOverload })
  | some (message, queue) =>
    (some message,
      { q with
        queue := queue
        overload := if queue.size > q.overloadThreshold then queue.size else q.overload
        overloadThreshold := raiseThreshold queue.size queue.size q.overloadThreshold })

/-- `skynet_mq_push`, but for the global queue. -/
def push (q : MessageQueue μ) (message : μ) : MessageQueue μ :=
  { q with
    queue := q.queue.push message q.queue.cap (Nat.zero_lt_of_lt q.queue.head_lt)
    inGlobal := true }

/-- `skynet_mq_overload`. -/
def readOverload (q : MessageQueue μ) : MessageQueue μ := { q with overload := 0 }

end MessageQueue

/-! ### Threads -/

/-- Where a thread is. -/
inductive Thread (μ : Type*)
  /-- A worker without a queue. -/
  | idle
  /-- A worker with a queue, before `skynet_handle_grab`. -/
  | holds (q : ℕ)
  /-- The handle is not known: before `skynet_mq_release`. -/
  | unknown (q : ℕ)
  /-- In `_drop_queue`. -/
  | drops (q : ℕ)
  /-- In the loop of `skynet_context_message_dispatch`, before `skynet_mq_pop`. -/
  | runs (q i n : ℕ)
  /-- In the loop, before `skynet_mq_length`. -/
  | measures (q : ℕ)
  /-- Behind the loop. -/
  | finished (q : ℕ)
  /-- Another queue has work: before `skynet_globalmq_push`. -/
  | givesBack (q nq : ℕ)
  /-- In `skynet_context_push`, before `skynet_mq_push`. -/
  | sends (c : ℕ) (message : μ)
  /-- In `skynet_context_new`, behind `skynet_module_instance_init`. -/
  | launches (c : ℕ) (ok : Bool)
  /-- In `skynet_context_new`, before `skynet_globalmq_push`. -/
  | announces (c : ℕ)
  /-- In `skynet_context_new`, before `skynet_handle_retire`. -/
  | retires (c : ℕ)
  /-- Before the count is lowered in `skynet_context_release`, and where the thread goes on. -/
  | releases (c : ℕ) (next : Thread μ)
  /-- In `delete_context`, before `skynet_mq_mark_release`. -/
  | deletes (c : ℕ) (next : Thread μ)

/-- What becomes of a message. -/
inductive Outcome (μ : Type*)
  | accepted (c : ℕ) (message : μ)
  | handled (c : ℕ) (message : μ)
  | dropped (c : ℕ) (message : μ)

/-- The services, their queues, the global queue and the threads. -/
structure Server (μ : Type*) where
  queues : ℕ → Option (MessageQueue μ)
  refs : ℕ → ℕ
  slot : ℕ → Bool
  /-- The services that have been made. -/
  created : ℕ
  globalQueue : List ℕ
  threads : List (Thread μ)
  outcomes : List (Outcome μ)

/-- What happens to the server. -/
inductive Event (μ : Type*)
  /-- A worker thread is started. -/
  | worker
  /-- `skynet_context_new`, with what the module's `init` returns. -/
  | launch (ok : Bool)
  /-- `skynet_context_push`. -/
  | send (c : ℕ) (message : μ)
  /-- `skynet_handle_retire`. -/
  | retire (c : ℕ)
  /-- A thread goes on. -/
  | step (i : ℕ) (weight : ℤ)

/-! ### The program -/

namespace Server

variable {μ : Type*}

/-- `skynet_start`. -/
def start : Server μ := ⟨fun _ => none, fun _ => 0, fun _ => false, 0, [], [], []⟩

/-- A queue is changed. -/
def setQueue (s : Server μ) (q : ℕ) (mq : Option (MessageQueue μ)) : Server μ :=
  { s with queues := Function.update s.queues q mq }

/-- `skynet_globalmq_push`. -/
def globalPush (s : Server μ) (q : ℕ) : Server μ := { s with globalQueue := s.globalQueue ++ [q] }

/-- `skynet_context_grab`. -/
def grab (s : Server μ) (c : ℕ) : Server μ :=
  { s with refs := Function.update s.refs c (s.refs c + 1) }

/-- The outcome of a message. -/
def write (s : Server μ) (o : Outcome μ) : Server μ := { s with outcomes := s.outcomes ++ [o] }

/-- The slot of a handle is emptied. -/
def clearSlot (s : Server μ) (c : ℕ) : Server μ :=
  { s with slot := Function.update s.slot c false }

/-- A queue is found, unless it has been freed. -/
def withQueue {β : Type*} (s : Server μ) (q : ℕ) (f : MessageQueue μ → Option β) : Option β :=
  (s.queues q).bind f

/-- A service is used, unless it has been freed. -/
def withContext {β : Type*} (s : Server μ) (c : ℕ) (r : Option β) : Option β :=
  if s.refs c = 0 then none else r

variable [Inhabited μ]

/-- What a thread does, and where it is then. -/
def go (s : Server μ) (weight : ℤ) : Thread μ → Option (Server μ × Thread μ)
  | .idle =>
    match s.globalQueue with
    | [] => some (s, .idle)
    | q :: rest => some ({ s with globalQueue := rest }, .holds q)
  | .holds q => s.withQueue q fun _ =>
    if s.slot q then some (s.grab q, .runs q 0 1) else some (s, .unknown q)
  | .unknown q => s.withQueue q fun mq =>
    if mq.release then some (s, .drops q) else some (s.globalPush q, .idle)
  | .drops q => s.withQueue q fun mq =>
    match mq.pop with
    | (some message, mq) => some ((s.setQueue q (some mq)).write (.dropped q message), .drops q)
    -- `_release`
    | (none, _) => some (s.setQueue q none, .idle)
  | .runs q i n => s.withContext q <| s.withQueue q fun mq =>
    match mq.pop with
    | (none, mq) => some (s.setQueue q (some mq), .releases q .idle)
    | (some message, mq) =>
      some ((s.setQueue q (some mq.readOverload)).write (.handled q message),
        if i = 0 ∧ weight ≥ 0 then .measures q
        else if i + 1 < n then .runs q (i + 1) n else .finished q)
  | .measures q => s.withQueue q fun mq =>
    let n := mq.length >>> weight.toNat
    some (s, if 1 < n then .runs q 1 n else .finished q)
  | .finished q =>
    match s.globalQueue with
    | [] => some (s, .releases q (.holds q))
    | nq :: rest => some ({ s with globalQueue := rest }, .givesBack q nq)
  | .givesBack q nq => s.withQueue q fun _ => some (s.globalPush q, .releases q (.holds nq))
  | .sends c message => s.withContext c <| s.withQueue c fun mq =>
    let s' := (s.setQueue c (some (mq.push message))).write (.accepted c message)
    some (if mq.inGlobal then s' else s'.globalPush c, .releases c .idle)
  | .launches c ok => some (s, .releases c (if ok then .announces c else .retires c))
  | .announces c => s.withQueue c fun _ => some (s.globalPush c, .idle)
  | .retires c =>
    if s.slot c then some (s.clearSlot c, .releases c (.unknown c)) else some (s, .unknown c)
  | .releases c next => s.withContext c <|
    some ({ s with refs := Function.update s.refs c (s.refs c - 1) },
      if s.refs c - 1 = 0 then .deletes c next else next)
  | .deletes c next => s.withQueue c fun mq =>
    -- `assert(q->release == 0)`
    if mq.release then none
    else
      let s' := s.setQueue c (some { mq with release := true })
      some (if mq.inGlobal then s' else s'.globalPush c, next)

/-- One event. -/
def step (s : Server μ) : Event μ → Option (Server μ)
  | .worker => some { s with threads := s.threads ++ [.idle] }
  | .launch ok => some
    { s with
      queues := Function.update s.queues s.created (some .create)
      refs := Function.update s.refs s.created 2
      slot := Function.update s.slot s.created true
      created := s.created + 1
      threads := s.threads ++ [.launches s.created ok] }
  | .send c message =>
    if s.slot c then some { s.grab c with threads := s.threads ++ [.sends c message] } else some s
  | .retire c =>
    if s.slot c then some { s.clearSlot c with threads := s.threads ++ [.releases c .idle] }
    else some s
  | .step i weight =>
    match s.threads[i]? with
    | none => some s
    | some t => (s.go weight t).map fun r => { r.1 with threads := s.threads.set i r.2 }

/-- The server after a sequence of events. -/
def run (es : List (Event μ)) : Option (Server μ) := es.foldlM step start

end Server

end Skynet
