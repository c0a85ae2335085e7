import JsmjServer.Gate.Gateway
import Mathlib.Data.List.Nodup
import Mathlib.Data.List.Flatten
import Mathlib.Data.List.Induction

set_option relaxedAutoImplicit false
set_option autoImplicit false

/-!
# Who may speak through the gate

What the sockets of the gate server stand for is said by what the service has done: which sockets
are open, and which login each of them holds. The tables of the service never say more, in any order
of sockets, messages, calls and answers.

## Main definitions

* `Gate.Sessions` — the sockets that are open and the logins they hold.
* `Gate.Allowed` — what the service may do after what it has done.
* `Gate.IsLogin` — the login that a name belongs to.
* `Gate.Inv` — the tables agree with what has happened.

## Main results

* `Gate.Sessions.holder_inj` — a login is held by one socket at a time.
* `Gate.Inv.closeclient`, `Gate.Inv.closing`, `Gate.Inv.logout`, `Gate.Inv.await` — the updates of
  the tables keep the invariant.

## Design

The invariant is in three parts: the sockets and the logins, the names of the logins, and the
accounts. It is carried through the primitive updates of the tables; the events are put together
from them.
-/

namespace Gate

/-! ### Sessions -/

/-- Which sockets are open, and which login each holds. -/
structure Sessions where
  opened : ℕ → Bool
  holder : ℕ → Option (List UInt8)

namespace Sessions

/-- Before anything has happened. -/
def empty : Sessions := ⟨fun _ => false, fun _ => none⟩

variable {ν : Type*}

/-- What an output says about the sockets: a login is held by one socket at a time. -/
def next (s : Sessions) : Output ν → Sessions
  | .opened fd => { s with opened := Function.update s.opened fd true }
  | .closed fd => { s with opened := Function.update s.opened fd false }
  | .disconnected fd => { s with holder := Function.update s.holder fd none }
  | .accepted fd name _ =>
    { s with
      holder := fun f =>
        if f = fd then some name else if s.holder f = some name then none else s.holder f }
  | .loggedOut name =>
    { s with holder := fun f => if s.holder f = some name then none else s.holder f }
  | _ => s

/-- After a list of outputs. -/
def after (out : List (Output ν)) : Sessions := out.foldl next empty

lemma after_append (out : List (Output ν)) (o : Output ν) :
    after (out ++ [o]) = (after out).next o := by simp [after]

/-- No login is held by two sockets. -/
lemma holder_inj (out : List (Output ν)) {f g : ℕ} {name : List UInt8}
    (hf : (after out).holder f = some name) (hg : (after out).holder g = some name) : f = g := by
  induction out using List.reverseRecOn generalizing f g name with
  | nil => simp [after, empty] at hf
  | append_singleton out o ih =>
    rw [after_append] at hf hg
    cases o with
    | disconnected fd =>
      simp only [next, Function.update_apply] at hf hg
      grind
    | accepted fd name' _ =>
      simp only [next] at hf hg
      grind
    | loggedOut name' =>
      simp only [next] at hf hg
      grind
    | _ => exact ih hf hg

end Sessions

variable {ν : Type*} [LinearOrder ν] (h : Host ν)

/-- What may go out after what has gone out: a message goes on from a socket that is open and that
alone holds a login that was completed, and to an agent that was started for the player of that
login. -/
def Allowed (past : List (Output ν)) : Output ν → Prop
  | .forwarded fd name agent _ =>
    (Sessions.after past).opened fd = true ∧
      (∀ fd', (Sessions.after past).holder fd' = some name ↔ fd' = fd) ∧
        (∃ id, .loggedIn name id ∈ past) ∧
          ∃ uid subid, name = username uid subid h.servername ∧ .created agent uid ∈ past
  | .raised fault => fault ≠ .alreadyOnline ∧ fault ≠ .noAccount
  | _ => True

/-- Everything that has gone out was allowed. -/
def Safe (out : List (Output ν)) : Prop :=
  ∀ past o future, out = past ++ o :: future → Allowed h past o

variable {h}

lemma Safe.append {out : List (Output ν)} {o : Output ν} (hs : Safe h out) (ho : Allowed h out o) :
    Safe h (out ++ [o]) := by
  intro past o' future heq
  rcases List.eq_nil_or_concat future with rfl | ⟨future, o'', rfl⟩
  · obtain ⟨rfl, hlast⟩ := List.append_inj' heq rfl
    obtain rfl : o = o' := by simpa using hlast
    exact ho
  · refine hs past o' future ?_
    have heq' : out ++ [o] = (past ++ o' :: future) ++ [o''] := by simp [heq]
    exact (List.append_inj' heq' rfl).1

/-! ### Logins -/

/-- The logins that have been asked for, in order. -/
def logins (es : List Event) : List (ℤ × List UInt8) :=
  es.filterMap fun
    | .login uid secret => some (uid, secret)
    | _ => none

variable (h)

/-- The name belongs to the login with this number, of this player and with this secret. -/
def IsLogin (log : List (ℤ × List UInt8)) (name : List UInt8) (uid : ℤ) (id : ℕ)
    (secret : List UInt8) : Prop :=
  0 < id ∧ log[id - 1]? = some (uid, secret) ∧ name = username uid id h.servername

variable {h}

lemma IsLogin.le {log : List (ℤ × List UInt8)} {name secret : List UInt8} {uid : ℤ} {id : ℕ}
    (hl : IsLogin h log name uid id secret) : id ≤ log.length := by
  have := (List.getElem?_eq_some_iff.mp hl.2.1).1
  have := hl.1
  omega

lemma IsLogin.append {log : List (ℤ × List UInt8)} {name secret : List UInt8} {uid : ℤ} {id : ℕ}
    (hl : IsLogin h log name uid id secret) (l : ℤ × List UInt8) :
    IsLogin h (log ++ [l]) name uid id secret := by
  have := hl.le
  have := hl.1
  exact ⟨hl.1, by rw [List.getElem?_append_left (by omega)]; exact hl.2.1, hl.2.2⟩

/-- A name belongs to one login only. -/
lemma IsLogin.id_eq {log : List (ℤ × List UInt8)} {name secret secret' : List UInt8}
    {uid uid' : ℤ} {id id' : ℕ} (hl : IsLogin h log name uid id secret)
    (hl' : IsLogin h log name uid' id' secret') : id = id' := by
  have heq := (username_inj (hl.2.2.symm.trans hl'.2.2)).2.1
  exact_mod_cast heq

/-- The numbers of the logins that a call is part of. -/
def Waiting.ids : Waiting → List ℕ
  | .newAgent _ id _ _ => [id]
  | .agentLogin _ id _ => [id]
  | _ => []

/-- The numbers of the logins that are under way. -/
def State.pending (s : State ν) : List ℕ := s.waiting.flatMap Waiting.ids

variable (h)

/-- A login that is under way is one that was asked for. -/
def Waiting.Named (log : List (ℤ × List UInt8)) : Waiting → Prop
  | .newAgent uid id name secret => IsLogin h log name uid id secret
  | .agentLogin u id secret => IsLogin h log u.username u.uid id secret
  | _ => True

/-- The account belongs to the login it names, and its agent was started for its player. -/
def Account.Known (out : List (Output ν)) (u : Account) : Prop :=
  u.username = Gate.username u.uid u.subid h.servername ∧ .created u.agent u.uid ∈ out

/-- A login that is under way has a known account, where it has one. -/
def Waiting.Known (out : List (Output ν)) : Waiting → Prop
  | .agentLogin u _ _ => u.Known h out
  | _ => True

/-- The sockets and the logins: a socket that speaks for a login is the one of that login, and it
holds the login by what has happened. -/
structure Attached (s : State ν) : Prop where
  opened : ∀ fd, s.conn fd = some true → (Sessions.after s.out).opened fd = true
  object : ∀ name p, s.userOnline name = some p → p < s.allocated ∧ (s.players p).username = name
  connection : ∀ fd p, s.connection fd = some p → (s.players p).fd = some fd ∧
    s.userOnline (s.players p).username = some p ∧
      (Sessions.after s.out).holder fd = some (s.players p).username

/-- The names: the logins that are under way, those that are complete and those that were ever
used belong to calls of the login server, and no two of them to the same. The logins in `held` are
those that the event in progress is part of. -/
structure Named (log : List (ℤ × List UInt8)) (held : List ℕ) (s : State ν) : Prop where
  count : s.internalId = log.length
  nodup : (held ++ s.pending).Nodup
  waiting : ∀ w ∈ s.waiting, w.Named h log
  online : ∀ name p, s.userOnline name = some p →
    ∃ uid id, IsLogin h log name uid id (s.players p).secret ∧ id ∉ held ++ s.pending
  loggedIn : ∀ name id, .loggedIn name id ∈ s.out →
    (∃ uid secret, IsLogin h log name uid id secret) ∧ id ∉ held ++ s.pending
  distinct : s.out.Pairwise fun o o' => ∀ name id name' id', o = .loggedIn name id →
    o' = .loggedIn name' id' → id ≠ id'
  accepted : ∀ fd name idx, .accepted fd name idx ∈ s.out →
    (∃ uid id secret, IsLogin h log name uid id secret ∧ id ∉ held ++ s.pending) ∧
      ∀ p, s.userOnline name = some p → idx ≤ (s.players p).version

/-- The accounts: they are known, and a login that is complete has one. -/
structure Accounts (s : State ν) : Prop where
  users : ∀ x u, s.users x = some u → h.number u.uid = x ∧ u.Known h s.out
  map : ∀ name u, s.usernameMap name = some u → u.username = name ∧ u.Known h s.out
  waiting : ∀ w ∈ s.waiting, w.Known h s.out
  online : ∀ name p, s.userOnline name = some p →
    (∃ u, s.usernameMap name = some u) ∧ ∃ id, .loggedIn name id ∈ s.out

/-- The tables agree with what has happened. -/
structure Inv (log : List (ℤ × List UInt8)) (held : List ℕ) (s : State ν) : Prop where
  attached : Attached s
  named : Named h log held s
  accounts : Accounts h s
  safe : Safe h s.out

variable {h} {log : List (ℤ × List UInt8)} {held : List ℕ} {s : State ν}

/-! ### What goes out -/

lemma Account.Known.mono {out out' : List (Output ν)} {u : Account} (hu : u.Known h out)
    (hle : out ⊆ out') : u.Known h out' := ⟨hu.1, hle hu.2⟩

lemma Waiting.Known.mono {out out' : List (Output ν)} {w : Waiting} (hw : w.Known h out)
    (hle : out ⊆ out') : w.Known h out' := by
  cases w with
  | agentLogin u id secret => exact Account.Known.mono hw hle
  | _ => trivial

/-- The accounts do not depend on what goes out next. -/
lemma Accounts.emit (hs : Accounts h s) (o : Output ν) : Accounts h (s.emit o) := by
  have hle : s.out ⊆ (s.emit o).out := List.subset_append_left _ _
  exact
    { users := fun x u hu => ⟨(hs.users x u hu).1, (hs.users x u hu).2.mono hle⟩
      map := fun name u hu => ⟨(hs.map name u hu).1, (hs.map name u hu).2.mono hle⟩
      waiting := fun w hw => (hs.waiting w hw).mono hle
      online := fun name p hp =>
        ⟨(hs.online name p hp).1, (hs.online name p hp).2.imp fun _ hid => hle hid⟩ }

/-- Nor do the names, unless it is a handshake or a login. -/
lemma Named.emit (hs : Named h log held s) {o : Output ν}
    (ha : ∀ fd name idx, o ≠ .accepted fd name idx)
    (hl : ∀ name id, o ≠ .loggedIn name id) : Named h log held (s.emit o) where
  count := hs.count
  nodup := hs.nodup
  waiting := hs.waiting
  online := hs.online
  loggedIn name id hmem := by
    rcases List.mem_append.mp hmem with hmem | hmem
    · exact hs.loggedIn name id hmem
    · exact absurd (List.mem_singleton.mp hmem).symm (hl name id)
  distinct := by
    refine List.pairwise_append.mpr ⟨hs.distinct, List.pairwise_singleton _ _, ?_⟩
    intro o' _ o'' ho'' name id name' id' _ heq
    obtain rfl := List.mem_singleton.mp ho''
    exact absurd heq (hl name' id')
  accepted fd name idx hmem := by
    rcases List.mem_append.mp hmem with hmem | hmem
    · exact hs.accepted fd name idx hmem
    · exact absurd (List.mem_singleton.mp hmem).symm (ha fd name idx)

omit [LinearOrder ν] in
lemma Attached.emit (hs : Attached s) {o : Output ν} (ho : ∀ t : Sessions, t.next o = t) :
    Attached (s.emit o) where
  opened fd hfd := by
    rw [State.emit, Sessions.after_append, ho]
    exact hs.opened fd hfd
  object := hs.object
  connection fd p hp := by
    rw [State.emit, Sessions.after_append, ho]
    exact hs.connection fd p hp

/-- The outputs that say nothing about sockets and logins. -/
def Output.Silent : Output ν → Prop
  | .opened _ => False
  | .closed _ => False
  | .disconnected _ => False
  | .accepted _ _ _ => False
  | .loggedIn _ _ => False
  | .loggedOut _ => False
  | _ => True

lemma Inv.emit (hs : Inv h log held s) {o : Output ν} (ho : o.Silent) (ha : Allowed h s.out o) :
    Inv h log held (s.emit o) where
  attached := hs.attached.emit (by cases o <;> first | exact fun _ => rfl | exact ho.elim)
  named := hs.named.emit (by rintro fd name idx rfl; exact ho) (by rintro name id rfl; exact ho)
  accounts := hs.accounts.emit o
  safe := hs.safe.append ha

lemma Inv.raise (hs : Inv h log held s) {fault : Fault} (h₁ : fault ≠ .alreadyOnline)
    (h₂ : fault ≠ .noAccount) : Inv h log held (s.raise fault) := hs.emit trivial ⟨h₁, h₂⟩

/-! ### The primitive updates -/

lemma Inv.clearHandshake (hs : Inv h log held s) (fd : ℕ) :
    Inv h log held (s.clearHandshake fd) where
  attached := { hs.attached with }
  named := { hs.named with }
  accounts := { hs.accounts with }
  safe := hs.safe

/-- A socket is closed by the service. -/
lemma Inv.closeclient (hs : Inv h log held s) (fd : ℕ) : Inv h log held (s.closeclient fd) := by
  rw [State.closeclient]
  split_ifs with hfd
  · have hn : Named h log held { s with conn := Function.update s.conn fd (some false) } :=
      { hs.named with }
    have ha : Accounts h { s with conn := Function.update s.conn fd (some false) } :=
      { hs.accounts with }
    refine ⟨⟨?_, hs.attached.object, ?_⟩, hn.emit (by simp) (by simp), ha.emit _,
      hs.safe.append trivial⟩
    · intro fd' hfd'
      simp only [State.emit, Sessions.after_append, Sessions.next, Function.update_apply] at hfd' ⊢
      split_ifs at hfd' ⊢ with heq
      · simp at hfd'
      · exact hs.attached.opened fd' hfd'
    · intro fd' p hp
      rw [State.emit, Sessions.after_append]
      exact hs.attached.connection fd' p hp
  · exact hs

lemma Inv.closeFd (hs : Inv h log held s) (fd : ℕ) : Inv h log held (s.closeFd fd) := by
  rw [State.closeFd]
  split_ifs with hfd
  · exact hs
  · refine ⟨{ hs.attached with opened := ?_ }, { hs.named with }, { hs.accounts with }, hs.safe⟩
    intro fd' hfd'
    simp only [Function.update_apply] at hfd'
    split_ifs at hfd' with heq
    exact hs.attached.opened fd' hfd'

lemma Inv.clearConnection (hs : Inv h log held s) (fd : ℕ) :
    Inv h log held (s.clearConnection fd) := by
  refine ⟨{ hs.attached with connection := ?_ }, { hs.named with }, { hs.accounts with }, hs.safe⟩
  intro fd' p hp
  simp only [State.clearConnection, Function.update_apply] at hp
  split_ifs at hp with heq
  exact hs.attached.connection fd' p hp

/-- A socket is taken in. -/
lemma Inv.opening (hs : Inv h log held s) (fd : ℕ) (addr : List UInt8) :
    Inv h log held (h.opening s fd addr) := by
  rw [Host.opening]
  split_ifs with hmax
  · exact hs.emit trivial trivial
  · set t : State ν := { s with
      conn := Function.update s.conn fd (some true)
      clientNumber := s.clientNumber + 1
      handshake := Function.update s.handshake fd (some addr) }
    have hn : Named h log held t := { hs.named with }
    have ha : Accounts h t := { hs.accounts with }
    refine ⟨⟨?_, hs.attached.object, ?_⟩, hn.emit (by simp) (by simp), ha.emit _,
      hs.safe.append trivial⟩
    · intro fd' hfd'
      simp only [State.emit, Sessions.after_append, Sessions.next, Function.update_apply, t]
        at hfd' ⊢
      split_ifs at hfd' ⊢ with heq
      · rfl
      · exact hs.attached.opened fd' hfd'
    · intro fd' p hp
      rw [State.emit, Sessions.after_append]
      exact hs.attached.connection fd' p hp

/-- Objects keep what the names say of them when only the socket is changed. -/
lemma Named.setPlayer (hs : Named h log held s) {p : ℕ} {u : Player ν}
    (hsecret : u.secret = (s.players p).secret) (hversion : (s.players p).version ≤ u.version) :
    Named h log held (s.setPlayer p u) := by
  refine { hs with online := ?_, accepted := ?_ }
  · intro name q hq
    obtain ⟨uid, id, hlogin, hid⟩ := hs.online name q hq
    refine ⟨uid, id, ?_, hid⟩
    simp only [State.setPlayer, Function.update_apply]
    split_ifs with heq
    · rw [hsecret, ← heq]
      exact hlogin
    · exact hlogin
  · intro fd name idx hmem
    refine ⟨(hs.accepted fd name idx hmem).1, fun q hq => ?_⟩
    have hle := (hs.accepted fd name idx hmem).2 q hq
    simp only [State.setPlayer, Function.update_apply]
    split_ifs with heq
    · rw [heq] at hle
      exact hle.trans hversion
    · exact hle

/-- The end of a socket is noticed. -/
lemma Inv.disconnected (hs : Inv h log held s) {fd : ℕ} (hfd : s.connection fd = none) :
    Inv h log held (s.emit (.disconnected fd)) := by
  refine ⟨⟨?_, hs.attached.object, ?_⟩, hs.named.emit (by simp) (by simp), hs.accounts.emit _,
    hs.safe.append trivial⟩
  · intro fd' hfd'
    rw [State.emit, Sessions.after_append]
    exact hs.attached.opened fd' hfd'
  · intro fd' p hp
    have hne : fd' ≠ fd := by
      rintro rfl
      simp [State.emit, hfd] at hp
    rw [State.emit, Sessions.after_append]
    simpa [Sessions.next, hne] using hs.attached.connection fd' p hp

/-- An object loses its socket. -/
lemma Inv.release (hs : Inv h log held s) {fd p : ℕ} (hp : s.connection fd = some p) :
    Inv h log held ((s.setPlayer p { s.players p with fd := none }).clearConnection fd) := by
  have hn := hs.named.setPlayer (u := { s.players p with fd := none }) rfl le_rfl
  refine ⟨⟨hs.attached.opened, ?_, ?_⟩, { hn with }, { hs.accounts with }, hs.safe⟩
  · intro name q hq
    have hobj := hs.attached.object name q hq
    refine ⟨hobj.1, ?_⟩
    simp only [State.clearConnection, State.setPlayer, Function.update_apply]
    split_ifs with heq
    · exact heq ▸ hobj.2
    · exact hobj.2
  · intro fd' q hq
    simp only [State.clearConnection, State.setPlayer, Function.update_apply] at hq ⊢
    split_ifs at hq with hfd
    have hne : q ≠ p := by
      rintro rfl
      have hfd' := (hs.attached.connection fd' q hq).1
      rw [(hs.attached.connection fd q hp).1] at hfd'
      exact hfd (Option.some.inj hfd').symm
    rw [if_neg hne]
    exact hs.attached.connection fd' q hq

/-- A call is under way, for the logins that the event is part of. -/
lemma Inv.await {w : Waiting} (hs : Inv h log w.ids s) (hnamed : w.Named h log)
    (hknown : w.Known h s.out) : Inv h log [] (s.await w) := by
  have hpending : (s.await w).pending = s.pending ++ w.ids := by
    simp [State.pending, State.await]
  have hiff : ∀ id, id ∉ [] ++ (s.await w).pending ↔ id ∉ w.ids ++ s.pending := by
    intro id
    rw [hpending]
    simp [and_comm]
  have hn : Named h log [] (s.await w) :=
    { hs.named with
      nodup := by
        rw [hpending, List.nil_append]
        exact List.nodup_append_comm.mp hs.named.nodup
      waiting := by
        intro w' hw'
        rcases List.mem_append.mp hw' with hw' | hw'
        · exact hs.named.waiting w' hw'
        · obtain rfl := List.mem_singleton.mp hw'
          exact hnamed
      online := by
        simp only [hiff]
        exact hs.named.online
      loggedIn := by
        simp only [hiff]
        exact hs.named.loggedIn
      accepted := by
        simp only [hiff]
        exact hs.named.accepted }
  refine ⟨{ hs.attached with }, hn, { hs.accounts with waiting := ?_ }, hs.safe⟩
  intro w' hw'
  rcases List.mem_append.mp hw' with hw' | hw'
  · exact hs.accounts.waiting w' hw'
  · obtain rfl := List.mem_singleton.mp hw'
    exact hknown

/-- A call is under way that no login is part of. -/
lemma Inv.awaitIdle {w : Waiting} (hs : Inv h log [] s) (hids : w.ids = [])
    (hnamed : w.Named h log) (hknown : w.Known h s.out) : Inv h log [] (s.await w) :=
  Inv.await (w := w) (by rwa [hids]) hnamed hknown

/-- The socket of a client is closed or broken. -/
lemma Inv.closing (hs : Inv h log [] s) (fd : ℕ) : Inv h log [] (s.closing fd) := by
  rw [State.closing]
  cases hfd : s.connection fd with
  | none =>
    have hc := ((hs.clearHandshake fd).disconnected hfd).closeFd fd
    simpa [State.emit, State.clearHandshake, hfd] using hc
  | some p =>
    -- the object gives its socket up before the end of the socket is written down
    have hrelease := (hs.clearHandshake fd).release hfd
    have hclosed : (((s.clearHandshake fd).setPlayer p
        { (s.clearHandshake fd).players p with fd := none }).clearConnection fd).connection fd =
          none := by simp [State.clearConnection]
    have hdis := hrelease.disconnected hclosed
    have hcase : ((s.clearHandshake fd).emit (.disconnected fd)).connection fd = some p := hfd
    simp only [hcase]
    split
    · exact hdis.closeFd fd
    · exact (hdis.emit (o := .called _ .afk) trivial trivial).awaitIdle rfl trivial trivial

omit [LinearOrder ν] in
lemma State.closeclient_clearConnection (s : State ν) (fd fd' : ℕ) :
    (s.closeclient fd).clearConnection fd' = (s.clearConnection fd').closeclient fd := by
  by_cases hfd : s.conn fd = some true
  · have hfd' : (s.clearConnection fd').conn fd = some true := hfd
    rw [State.closeclient, State.closeclient, if_pos hfd, if_pos hfd']
    rfl
  · have hfd' : ¬(s.clearConnection fd').conn fd = some true := hfd
    rw [State.closeclient, State.closeclient, if_neg hfd, if_neg hfd']

/-- A login ends. -/
lemma Inv.loggedOut (hs : Inv h log held s) {name : List UInt8}
    (hfd : ∀ fd p, s.connection fd = some p → (s.players p).username ≠ name) :
    Inv h log held ({ s with userOnline := Function.update s.userOnline name none }.emit
      (.loggedOut name)) := by
  have hmem : ∀ name' p, Function.update s.userOnline name none name' = some p →
      name' ≠ name ∧ s.userOnline name' = some p := by
    intro name' p hp
    rw [Function.update_apply] at hp
    split_ifs at hp with heq
    exact ⟨heq, hp⟩
  set t : State ν := { s with userOnline := Function.update s.userOnline name none }
  have hn : Named h log held t :=
    { hs.named with
      online := fun name' p hp => hs.named.online name' p (hmem name' p hp).2
      accepted := fun fd name' idx hin => ⟨(hs.named.accepted fd name' idx hin).1,
        fun p hp => (hs.named.accepted fd name' idx hin).2 p (hmem name' p hp).2⟩ }
  have ha : Accounts h t :=
    { hs.accounts with online := fun name' p hp => hs.accounts.online name' p (hmem name' p hp).2 }
  refine ⟨⟨?_, fun name' p hp => hs.attached.object name' p (hmem name' p hp).2, ?_⟩,
    hn.emit (by simp) (by simp), ha.emit _, hs.safe.append trivial⟩
  · intro fd hopen
    rw [State.emit, Sessions.after_append]
    exact hs.attached.opened fd hopen
  · intro fd p hp
    obtain ⟨hsocket, honline, hholder⟩ := hs.attached.connection fd p hp
    have hne := hfd fd p hp
    refine ⟨hsocket, ?_, ?_⟩
    · simpa [State.emit, t, Function.update_apply, hne] using honline
    · rw [State.emit, Sessions.after_append]
      simpa [Sessions.next, t, hholder] using hne

lemma Inv.logout (hs : Inv h log held s) (name : List UInt8) : Inv h log held (s.logout name) := by
  rw [State.logout]
  cases hname : s.userOnline name with
  | none =>
    refine hs.loggedOut fun fd p hp heq => ?_
    have honline := (hs.attached.connection fd p hp).2.1
    rw [heq, hname] at honline
    simp at honline
  | some p =>
    -- the only socket of the login is the one of its object
    have honly : ∀ fd q, s.connection fd = some q → (s.players q).username = name →
        (s.players p).fd = some fd := by
      intro fd q hq heq
      obtain ⟨hsocket, honline, -⟩ := hs.attached.connection fd q hq
      rw [heq, hname] at honline
      obtain rfl := Option.some.inj honline
      exact hsocket
    cases hfd : (s.players p).fd with
    | none =>
      simp only [State.emit, hfd]
      refine hs.loggedOut fun fd q hq heq => ?_
      simp [honly fd q hq heq] at hfd
    | some fd =>
      have hother : ∀ fd' q, (s.clearConnection fd).connection fd' = some q →
          ((s.clearConnection fd).players q).username ≠ name := by
        intro fd' q hq heq
        simp only [State.clearConnection, Function.update_apply] at hq
        split_ifs at hq with hne
        have := honly fd' q hq heq
        rw [hfd] at this
        exact hne (Option.some.inj this).symm
      have hclear := (hs.clearConnection fd).loggedOut hother
      have hclose := hclear.closeclient fd
      simp only [State.emit, hfd]
      rw [State.closeclient_clearConnection]
      exact hclose

end Gate
