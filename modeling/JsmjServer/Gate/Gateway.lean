import JsmjServer.Gate.Username
import Mathlib.Logic.Function.Basic
import Mathlib.Order.Hom.Basic

set_option relaxedAutoImplicit false
set_option autoImplicit false

/-!
# The gate server

`service/gamegated.lua` over `lualib/snax/gatewayserver.lua` over `lualib/snax/gateserver.lua`: the
service that holds the sockets of the players, lets a socket speak for a player after a handshake,
and hands on what the player sends to the player's agent.

## Main definitions

* `Gate.Host` — what the service is started with, and what it takes from Lua.
* `Gate.State` — the tables of the three modules.
* `Gate.Event` — what happens to the service: sockets, calls, and answers to its own calls.
* `Gate.Host.next` — the service, event by event.

## Design

The tables that the code makes for a login are objects: `userOnline` and `connection` hold the same
one, so that they hold a number here, and `players` is the heap. A call to another service lets
other events in until it is answered; what is left to do then is in `waiting`. What the service
does to the outside is written down in `out`, oldest first. The closing and the errors of the
listening socket, `kick` and the queries of the account tables are left out.
-/

namespace Gate

/-! ### Data -/

/-- What the gate server is started with, and what it takes from Lua: the numbers, which
`number` embeds the integers in, `tonumber`, and `md5.sumhexa`. -/
structure Host (ν : Type*) [LinearOrder ν] where
  servername : List UInt8
  maxclient : ℤ
  number : ℤ ↪o ν
  tonumber : List UInt8 → Option ν
  sumhexa : List UInt8 → List UInt8

/-- The `u` of the gateway server. -/
structure Player (ν : Type*) where
  secret : List UInt8
  version : ν
  username : List UInt8
  fd : Option ℕ
  ip : List UInt8

/-- The `u` of the gate. -/
structure Account where
  username : List UInt8
  agent : ℕ
  uid : ℤ
  subid : ℤ
  deriving DecidableEq

/-- What an agent is called with. -/
inductive Request (ν : Type*)
  | login (uid id : ℤ) (secret : List UInt8)
  | auth (uid : ν) (fd : ℕ) (ip : List UInt8)
  | online (uid : ν) (fd : ℕ)
  | afk

/-- The errors that end what the service is doing. -/
inductive Fault
  /-- `assert(user_online[username] == nil)`. -/
  | alreadyOnline
  /-- `assert(connection[fd], "invalid fd")`. -/
  | invalidFd
  /-- `assert(u.username == username)`. -/
  | otherLogin
  /-- A player without an entry in `username_map`. -/
  | noAccount
  /-- A name that is not read, or whose account is gone. -/
  | noUser
  /-- A call that failed. -/
  | callFailed
  deriving DecidableEq

/-- What the service does to the outside. -/
inductive Output (ν : Type*)
  /-- A socket is taken in. -/
  | opened (fd : ℕ)
  /-- There are too many sockets. -/
  | rejected (fd : ℕ)
  /-- The service closes a socket. -/
  | closed (fd : ℕ)
  /-- The end of a socket is noticed. -/
  | disconnected (fd : ℕ)
  /-- A text goes to a client. -/
  | sent (fd : ℕ) (text : String)
  /-- A handshake succeeds. -/
  | accepted (fd : ℕ) (username : List UInt8) (idx : ν)
  /-- What a client sent goes to an agent. -/
  | forwarded (fd : ℕ) (username : List UInt8) (agent : ℕ) (message : List UInt8)
  /-- What came from a closed socket is thrown away. -/
  | dropped (fd : ℕ)
  /-- An agent is started for a player. -/
  | created (agent : ℕ) (uid : ℤ)
  /-- An agent is called. -/
  | called (agent : ℕ) (request : Request ν)
  /-- A login is complete, and its number is returned. -/
  | loggedIn (username : List UInt8) (id : ℕ)
  /-- A login has ended. -/
  | loggedOut (username : List UInt8)
  /-- An error. -/
  | raised (fault : Fault)

/-- What is left to do when a call is answered. -/
inductive Waiting
  /-- `login_handler` has asked for an agent. -/
  | newAgent (uid : ℤ) (id : ℕ) (username secret : List UInt8)
  /-- `login_handler` has told the agent. -/
  | agentLogin (u : Account) (id : ℕ) (secret : List UInt8)
  /-- `auth` is in `auth_handler`. -/
  | agentAuth (fd : ℕ) (username : List UInt8)
  /-- `auth` is in `online_handler`. -/
  | agentOnline (fd : ℕ)
  /-- The end of a socket is in `disconnect_handler`. -/
  | agentAfk (fd : ℕ)

/-- The tables of the three modules. -/
structure State (ν : Type*) where
  /-- `connection` of `gateserver.lua`. -/
  conn : ℕ → Option Bool
  clientNumber : ℤ
  players : ℕ → Player ν
  /-- The objects in the heap. -/
  allocated : ℕ
  userOnline : List UInt8 → Option ℕ
  handshake : ℕ → Option (List UInt8)
  /-- `connection` of `gatewayserver.lua`. -/
  connection : ℕ → Option ℕ
  users : ν → Option Account
  usernameMap : List UInt8 → Option Account
  internalId : ℕ
  waiting : List Waiting
  out : List (Output ν)

/-- What happens to the service. -/
inductive Event
  /-- A socket is connected. -/
  | opening (fd : ℕ) (addr : List UInt8)
  /-- A message has come. -/
  | data (fd : ℕ) (message : List UInt8)
  /-- A socket is closed or broken. -/
  | closing (fd : ℕ)
  /-- The login server calls `login`. -/
  | login (uid : ℤ) (secret : List UInt8)
  /-- An agent calls `logout`. -/
  | logout (uid subid : ℤ)
  /-- A call is answered, with an agent where one was asked for, or fails. -/
  | answer (i : ℕ) (agent : Option ℕ)

/-! ### The program -/

namespace State

variable {ν : Type*}

/-- Something goes out. -/
def emit (s : State ν) (o : Output ν) : State ν := { s with out := s.out ++ [o] }

/-- An error. -/
def raise (s : State ν) (fault : Fault) : State ν := s.emit (.raised fault)

/-- A call is under way. -/
def await (s : State ν) (w : Waiting) : State ν := { s with waiting := s.waiting ++ [w] }

/-- `gateserver.closeclient`. -/
def closeclient (s : State ν) (fd : ℕ) : State ν :=
  if s.conn fd = some true then
    { s with conn := Function.update s.conn fd (some false) }.emit (.closed fd)
  else s

/-- `close_fd`. -/
def closeFd (s : State ν) (fd : ℕ) : State ν :=
  if s.conn fd = none then s
  else { s with conn := Function.update s.conn fd none, clientNumber := s.clientNumber - 1 }

/-- `handshake[fd] = nil`. -/
def clearHandshake (s : State ν) (fd : ℕ) : State ν :=
  { s with handshake := Function.update s.handshake fd none }

/-- `connection[fd] = nil`. -/
def clearConnection (s : State ν) (fd : ℕ) : State ν :=
  { s with connection := Function.update s.connection fd none }

/-- A field of an object is set. -/
def setPlayer (s : State ν) (p : ℕ) (u : Player ν) : State ν :=
  { s with players := Function.update s.players p u }

/-- `do_auth` closes the socket that spoke for the player before. -/
def dropBefore (s : State ν) (u : Player ν) : State ν :=
  match u.fd with
  | none => s
  | some old => (s.closeclient old).clearConnection old

/-- `do_auth` lets the socket speak for the player. -/
def attach (s : State ν) (fd p : ℕ) (addr name : List UInt8) (idx : ν) : State ν :=
  { s.setPlayer p { s.players p with version := idx, fd := some fd, ip := addr } with
    connection := Function.update s.connection fd (some p) }.emit (.accepted fd name idx)

/-- `server.disconnect` of the gateway server. -/
def disconnect (s : State ν) (username : List UInt8) : State ν :=
  match s.userOnline username with
  | none => s
  | some p =>
    match (s.players p).fd with
    | none => s
    | some fd => s.closeclient fd

/-- `server.logout` of the gateway server. -/
def logout (s : State ν) (username : List UInt8) : State ν :=
  let s' := { s with userOnline := Function.update s.userOnline username none }
    |>.emit (.loggedOut username)
  match s.userOnline username with
  | none => s'
  | some p =>
    match (s.players p).fd with
    | none => s'
    | some fd => (s'.closeclient fd).clearConnection fd

/-- `request_handler`. -/
def requestHandler (s : State ν) (fd : ℕ) (username message : List UInt8) : State ν :=
  match s.usernameMap username with
  | none => s.raise .noAccount
  | some u => s.emit (.forwarded fd username u.agent message)

/-- The end of `auth` and of `handler.message`. -/
def authEnd (s : State ν) (fd : ℕ) : State ν := (s.emit (.sent fd "200 OK")).clearHandshake fd

/-- `auth` when the handshake fails, and the end of `handler.message`. -/
def refuse (s : State ν) (fd : ℕ) (result : String) : State ν :=
  ((s.emit (.sent fd result)).closeclient fd).clearHandshake fd

/-- `handler.disconnect` and `close_fd`. -/
def closing (s : State ν) (fd : ℕ) : State ν :=
  let s := (s.clearHandshake fd).emit (.disconnected fd)
  match s.connection fd with
  | none => s.closeFd fd
  | some p =>
    let u := s.players p
    let s := (s.setPlayer p { u with fd := none }).clearConnection fd
    -- `disconnect_handler`
    match s.usernameMap u.username with
    | none => s.closeFd fd
    | some account => (s.emit (.called account.agent .afk)).await (.agentAfk fd)

end State

namespace Host

variable {ν : Type*} [LinearOrder ν] (h : Host ν)

/-- The service before its first event. -/
def start : State ν :=
  ⟨fun _ => none, 0, fun _ => ⟨[], h.number 0, [], none, []⟩, 0, fun _ => none, fun _ => none,
    fun _ => none, fun _ => none, fun _ => none, 0, [], []⟩

/-- `MSG.open` and `handler.connect`. -/
def opening (s : State ν) (fd : ℕ) (addr : List UInt8) : State ν :=
  if s.clientNumber ≥ h.maxclient then s.emit (.rejected fd)
  else
    { s with
      conn := Function.update s.conn fd (some true)
      clientNumber := s.clientNumber + 1
      handshake := Function.update s.handshake fd (some addr) }.emit (.opened fd)

/-- `do_auth`, which returns a result when it refuses; `none` when it raises an error. -/
def doAuth (s : State ν) (fd : ℕ) (message addr : List UInt8) : Option (Option String × State ν) :=
  match splitHandshake message with
  | none => some (some "404 User Not Found", s)
  | some (name, index, hmac) =>
    match s.userOnline name with
    | none => some (some "404 User Not Found", s)
    | some p =>
      let u := s.players p
      match h.tonumber index, lb64decode hmac with
      | some idx, some hmac =>
        if idx ≤ u.version then some (some "403 Index Expired", s)
        else if h.sumhexa (name ++ 58 :: index ++ u.secret) ≠ hmac then
          some (some "401 Unauthorized", s)
        else some (none, (s.dropBefore u).attach fd p addr name idx)
      | _, _ => none

/-- The account that a name belongs to: `users[tonumber(userid(username))]`, with the number. -/
def accountOf (s : State ν) (name : List UInt8) : Option (ν × Account) :=
  (userid name).bind fun parts => (h.tonumber parts.1).bind fun uid =>
    (s.users uid).map fun u => (uid, u)

/-- `auth_handler`. -/
def authHandler (s : State ν) (name : List UInt8) (fd : ℕ) (ip : List UInt8) : State ν :=
  match h.accountOf s name with
  | none => s.raise .noUser
  | some (uid, u) => (s.emit (.called u.agent (.auth uid fd ip))).await (.agentAuth fd name)

/-- `online_handler`, with the number that `auth` reads from the name. -/
def onlineHandler (s : State ν) (name : List UInt8) (fd : ℕ) : State ν :=
  match h.accountOf s name with
  | none => s.raise .noUser
  | some (uid, u) => (s.emit (.called u.agent (.online uid fd))).await (.agentOnline fd)

/-- `auth`, up to its first call. -/
def auth (s : State ν) (fd : ℕ) (addr message : List UInt8) : State ν :=
  match h.doAuth s fd message addr with
  | none => s.refuse fd "400 Bad Request"
  | some (some result, s) => s.refuse fd result
  | some (none, s) =>
    match splitHandshake message, s.connection fd with
    | some (name, _, _), some p => h.authHandler s name fd (s.players p).ip
    | _, _ => s.authEnd fd

/-- `dispatch_msg` and `handler.message`. -/
def data (s : State ν) (fd : ℕ) (message : List UInt8) : State ν :=
  if s.conn fd ≠ some true then s.emit (.dropped fd)
  else
    match s.handshake fd with
    | some addr => h.auth s fd addr message
    | none =>
      match s.connection fd with
      | none => s.raise .invalidFd
      -- `message:sub(1,-5)`
      | some p => s.requestHandler fd (s.players p).username (message.take (message.length - 4))

/-- `login_handler` from where the agent is known. -/
def loginAgent (s : State ν) (u : Account) (id : ℕ) (secret : List UInt8) : State ν :=
  let s := { s with users := Function.update s.users (h.number u.uid) (some u) }
  (s.emit (.called u.agent (.login u.uid id secret))).await (.agentLogin u id secret)

/-- `login_handler`, up to its first call. -/
def login (s : State ν) (uid : ℤ) (secret : List UInt8) : State ν :=
  let id := s.internalId + 1
  let s := { s with internalId := id }
  let name := username uid id h.servername
  match s.users (h.number uid) with
  | some old =>
    h.loginAgent (s.disconnect old.username) ⟨name, old.agent, uid, id⟩ id secret
  | none => s.await (.newAgent uid id name secret)

/-- The end of `login_handler`, with `server.login` of the gateway server. -/
def loginEnd (s : State ν) (u : Account) (id : ℕ) (secret : List UInt8) : State ν :=
  let s := { s with usernameMap := Function.update s.usernameMap u.username (some u) }
  if s.userOnline u.username ≠ none then s.raise .alreadyOnline
  else
    { s.setPlayer s.allocated ⟨secret, h.number 0, u.username, none, []⟩ with
      allocated := s.allocated + 1
      userOnline := Function.update s.userOnline u.username (some s.allocated) }.emit
        (.loggedIn u.username id)

/-- `logout_handler`. -/
def logout (s : State ν) (uid subid : ℤ) : State ν :=
  match s.users (h.number uid) with
  | none => s
  | some u =>
    if u.username ≠ username uid subid h.servername then s.raise .otherLogin
    else
      let s := s.logout u.username
      { s with
        users := Function.update s.users (h.number uid) none
        usernameMap := Function.update s.usernameMap u.username none }

/-- The service goes on where a call is answered. -/
def resume (s : State ν) : Waiting → ℕ → State ν
  | .newAgent uid id name secret, agent =>
    h.loginAgent (s.emit (.created agent uid)) ⟨name, agent, uid, id⟩ id secret
  | .agentLogin u id secret, _ => h.loginEnd s u id secret
  | .agentAuth fd name, _ => h.onlineHandler s name fd
  | .agentOnline fd, _ => s.authEnd fd
  | .agentAfk fd, _ => s.closeFd fd

/-- One event. -/
def next (s : State ν) : Event → State ν
  | .opening fd addr => h.opening s fd addr
  | .data fd message => h.data s fd message
  | .closing fd => s.closing fd
  | .login uid secret => h.login s uid secret
  | .logout uid subid => h.logout s uid subid
  | .answer i agent =>
    match s.waiting[i]? with
    | none => s
    | some w =>
      let s := { s with waiting := s.waiting.eraseIdx i }
      match agent with
      | none => s.raise .callFailed
      | some agent => h.resume s w agent

/-- The service after a sequence of events. -/
def run (es : List Event) : State ν := es.foldl h.next h.start

end Host

end Gate
