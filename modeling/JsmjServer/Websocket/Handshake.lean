import JsmjServer.Lib.Runs
import JsmjServer.Websocket.Netpack

set_option relaxedAutoImplicit false
set_option autoImplicit false

/-!
# The websocket unpacker with the handshake

`filter_data_` of `lualib-src/lua-websocketnetpack.c` is told at every call whether the connection
is still in its handshake. It then looks for the end of an HTTP request instead of a frame, in the
same three places and with the same `struct uncomplete`.

## Main definitions

* `Websocket.getHttpHeader` — the length of the request.
* `Websocket.filterDataHandshake` — `filter_data_` with `wsocket_handeshake` set.
* `Websocket.Event`, `Websocket.next` — what the unpacker is called with, and its next state.

## Design

The code that calls the unpacker is not part of the repository: any call may be in the handshake or
after it. In fewer than three bytes the number of positions at which `websocket_strnpos` looks for
the end of a request is negative and taken as unsigned, so that it reads far beyond the buffer: the
result `overrun` here, and `fault` of the whole call. A run ends with a fault.
-/

namespace Websocket

/-! ### The end of a request -/

/-- The results of `get_http_header`: the length of the request, or `-1`. -/
inductive HttpHeader
  | found (length : ℕ)
  | missing
  | overrun
  deriving DecidableEq

/-- `websocket_strnpos` with `"\r\n\r\n"`, on three bytes or more. -/
def websocketStrnpos (haystack : List UInt8) : Option ℕ :=
  (List.range (haystack.length - 3)).find? fun i => (haystack.drop i).take 4 = [13, 10, 13, 10]

/-- `get_http_header`. -/
def getHttpHeader (buffer : List UInt8) : HttpHeader :=
  if buffer.length < 3 then .overrun
  else
    match websocketStrnpos buffer with
    | none => .missing
    | some n => .found (n + 4)

/-! ### The unpacker -/

/-- `push_more` with `wsocket_handeshake` set, with fuel for the depth of the recursion. -/
def pushMoreHandshake : ℕ → Queue → ℤ → List UInt8 → Option Queue
  | 0, q, _, _ => some q
  | fuel + 1, q, fd, buffer =>
    match getHttpHeader buffer with
    | .overrun => none
    | .missing => some (q.saveUncomplete fd (.header buffer))
    | .found packSize =>
      let q := q.pushData fd (buffer.take packSize)
      let buffer := buffer.drop packSize
      if buffer = [] then some q else pushMoreHandshake fuel q fd buffer

/-- The end of a call that has a first packet and may have more bytes. -/
def moreHandshake (q : Queue) (fd : ℤ) (packet buffer : List UInt8) : Result × Queue :=
  if buffer = [] then (.data packet, q)
  else
    match pushMoreHandshake buffer.length (q.pushData fd packet) fd buffer with
    | none => (.fault, q)
    | some q => (.more, q)

/-- The loop of `filter_data_` that appends bytes to a header under way until it ends a request or
the bytes are used up. -/
def headerLoopHandshake (header : List UInt8) (r : HttpHeader) :
    List UInt8 → List UInt8 × HttpHeader × List UInt8
  | [] => (header, r, [])
  | b :: rest =>
    let header := header ++ [b]
    let r := getHttpHeader header
    if r ≠ .missing ∨ rest = [] then (header, r, rest) else headerLoopHandshake header r rest

/-- `filter_data_` with `wsocket_handeshake` set. -/
def filterDataHandshake (q : Queue) (fd : ℤ) (buffer : List UInt8) : Result × Queue :=
  match q.hash fd with
  | some (.header header) =>
    let q := q.takeUncomplete fd
    let (header, r, buffer) := headerLoopHandshake header (.found 0) buffer
    match r with
    | .overrun => (.fault, q)
    | .missing => (.none, q.saveUncomplete fd (.header header))
    | .found packSize => moreHandshake q fd (header.take packSize) buffer
  | some (.payload size read mask hasunmask) =>
    let q := q.takeUncomplete fd
    let need := size - read.length
    if buffer.length < need then
      (.none, q.saveUncomplete fd (.payload size (read ++ decodeWsmaskData mask hasunmask buffer)
        mask (unmasked mask hasunmask buffer.length)))
    else
      moreHandshake q fd (read ++ decodeWsmaskData mask hasunmask (buffer.take need))
        (buffer.drop need)
  | none =>
    match getHttpHeader buffer with
    | .overrun => (.fault, q)
    | .missing => (.none, q.saveUncomplete fd (.header buffer))
    | .found packSize => moreHandshake q fd (buffer.take packSize) (buffer.drop packSize)

/-! ### Runs -/

/-- What `lfilter` is called with: bytes from a socket, in the handshake or after it, or the news
that the socket is closed or has failed. -/
inductive Event
  | data (fd : ℤ) (buffer : List UInt8) (handshake : Bool)
  | close (fd : ℤ)

/-- `filter_data_`. -/
def filter (q : Queue) (fd : ℤ) (buffer : List UInt8) (handshake : Bool) : Result × Queue :=
  if handshake then filterDataHandshake q fd buffer else filterData q fd buffer

/-- The queue after an event, with the packets popped when more are announced. -/
def next (q : Queue) : Event → Option Queue
  | .data fd buffer handshake =>
    match filter q fd buffer handshake with
    | (.fault, _) => none
    | x => some (collect fd x).2
  | .close fd => some (q.takeUncomplete fd)

end Websocket
