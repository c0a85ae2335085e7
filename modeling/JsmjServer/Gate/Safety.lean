import JsmjServer.Gate.Sessions
import Mathlib.Data.List.Perm.Basic

set_option relaxedAutoImplicit false
set_option autoImplicit false

/-!
# The safety of the gate server

Every event keeps the tables of the gate server in agreement with what it has done, and with that
what goes out in a run is what may go out.

## Main results

* `Gate.Host.run_inv` — the invariant after every sequence of events.
* `Gate.Host.run_safe` — a message goes on only from an open socket that alone holds a login, to the
  agent that was started for its player.
* `Gate.Host.run_logins` — no name is given twice, and the assertion of the login never fails.
-/

namespace Gate

variable {ν : Type*} [LinearOrder ν] {h : Host ν} {log : List (ℤ × List UInt8)} {held : List ℕ}
  {s : State ν}

/-! ### The handshake -/

/-- A handshake succeeds for a login that no socket speaks for. -/
lemma Inv.attach (hs : Inv h log held s) {fd p : ℕ} {name addr : List UInt8} {idx : ν}
    (hp : s.userOnline name = some p) (hno : ∀ fd', s.connection fd' ≠ some p)
    (hidx : (s.players p).version < idx) :
    Inv h log held (s.attach fd p addr name idx) := by
  obtain ⟨hlt, hname⟩ := hs.attached.object name p hp
  set u : Player ν := { s.players p with version := idx, fd := some fd, ip := addr }
  have hset : Named h log held (s.setPlayer p u) := hs.named.setPlayer rfl hidx.le
  refine ⟨⟨?_, ?_, ?_⟩, ?_, Accounts.emit (s := { s.setPlayer p u with
    connection := Function.update s.connection fd (some p) }) { hs.accounts with } _,
    hs.safe.append trivial⟩
  · intro fd' hfd'
    rw [State.attach, State.emit, Sessions.after_append]
    exact hs.attached.opened fd' hfd'
  · intro name' q hq
    obtain ⟨hlt', hname'⟩ := hs.attached.object name' q hq
    refine ⟨hlt', ?_⟩
    simp only [State.attach, State.emit, State.setPlayer, Function.update_apply]
    split_ifs with heq
    · rwa [heq] at hname'
    · exact hname'
  · intro fd' q hq
    simp only [State.attach, State.emit, State.setPlayer, Function.update_apply,
      Sessions.after_append, Sessions.next] at hq ⊢
    by_cases hfd : fd' = fd
    · rw [if_pos hfd] at hq
      obtain rfl := Option.some.inj hq
      simp [hname, hp, hfd]
    · rw [if_neg hfd] at hq ⊢
      have hne : q ≠ p := by
        rintro rfl
        exact hno fd' hq
      obtain ⟨hsocket, honline, hholder⟩ := hs.attached.connection fd' q hq
      rw [if_neg hne]
      refine ⟨hsocket, honline, ?_⟩
      rw [if_neg, hholder]
      rw [hholder]
      rintro heq
      rw [Option.some.inj heq, hp] at honline
      exact hne (Option.some.inj honline).symm
  · obtain ⟨uid, id, hlogin, hid⟩ := hs.named.online name p hp
    refine
      { hset with
        loggedIn := fun name id hmem =>
          hset.loggedIn name id (by simpa [State.attach, State.emit] using hmem)
        distinct := ?_
        accepted := ?_ }
    · refine List.pairwise_append.mpr ⟨hset.distinct, List.pairwise_singleton _ _, ?_⟩
      intro o _ o' ho' name id name' id' _ heq
      simp [List.mem_singleton.mp ho'] at heq
    · intro fd' name' idx' hmem
      rcases List.mem_append.mp hmem with hmem | hmem
      · exact hset.accepted fd' name' idx' hmem
      · obtain ⟨rfl, rfl, rfl⟩ : fd' = fd ∧ name' = name ∧ idx' = idx := by simpa using hmem
        refine ⟨⟨uid, id, _, hlogin, hid⟩, fun q hq => ?_⟩
        obtain rfl : q = p := Option.some.inj (hq.symm.trans hp)
        simp [State.attach, State.emit, State.setPlayer]

omit [LinearOrder ν] in
lemma State.dropBefore_connection {u : Player ν} {old : ℕ} (hu : u.fd = some old) :
    (s.dropBefore u).connection = Function.update s.connection old none := by
  rw [State.dropBefore, hu]
  simp only [State.closeclient]
  split_ifs <;> rfl

omit [LinearOrder ν] in
lemma State.dropBefore_players (u : Player ν) : (s.dropBefore u).players = s.players := by
  rw [State.dropBefore]
  cases u.fd with
  | none => rfl
  | some old =>
    simp only [State.closeclient]
    split_ifs <;> rfl

omit [LinearOrder ν] in
lemma State.dropBefore_userOnline (u : Player ν) :
    (s.dropBefore u).userOnline = s.userOnline := by
  rw [State.dropBefore]
  cases u.fd with
  | none => rfl
  | some old =>
    simp only [State.closeclient]
    split_ifs <;> rfl

lemma Inv.dropBefore (hs : Inv h log held s) (u : Player ν) :
    Inv h log held (s.dropBefore u) := by
  rw [State.dropBefore]
  cases u.fd with
  | none => exact hs
  | some old => exact (hs.closeclient old).clearConnection old

/-- The socket that spoke for an object no longer does. -/
lemma Inv.dropBefore_ne (hs : Inv h log held s) (p fd : ℕ) :
    (s.dropBefore (s.players p)).connection fd ≠ some p := by
  intro hp
  cases hfd : (s.players p).fd with
  | none =>
    have hp' : s.connection fd = some p := by simpa [State.dropBefore, hfd] using hp
    simp [(hs.attached.connection fd p hp').1] at hfd
  | some old =>
    rw [State.dropBefore_connection hfd, Function.update_apply] at hp
    split_ifs at hp with hne
    rw [(hs.attached.connection fd p hp).1] at hfd
    exact hne (Option.some.inj hfd)

/-- What `do_auth` comes to. -/
lemma Host.doAuth_cases (h : Host ν) (s : State ν) (fd : ℕ) (message addr : List UInt8) :
    h.doAuth s fd message addr = none ∨
    (∃ result, h.doAuth s fd message addr = some (some result, s)) ∨
    ∃ name index hmac p idx, splitHandshake message = some (name, index, hmac) ∧
      s.userOnline name = some p ∧ h.tonumber index = some idx ∧
      lb64decode hmac = some (h.sumhexa (name ++ 58 :: index ++ (s.players p).secret)) ∧
      (s.players p).version < idx ∧
      h.doAuth s fd message addr =
        some (none, (s.dropBefore (s.players p)).attach fd p addr name idx) := by
  cases hsplit : splitHandshake message with
  | none => exact .inr (.inl ⟨_, by rw [Host.doAuth, hsplit]⟩)
  | some parts =>
    obtain ⟨name, index, hmac⟩ := parts
    cases hp : s.userOnline name with
    | none => exact .inr (.inl ⟨"404 User Not Found", by simp only [Host.doAuth, hsplit, hp]⟩)
    | some p =>
      cases hidx : h.tonumber index with
      | none => exact .inl (by simp only [Host.doAuth, hsplit, hp, hidx])
      | some idx =>
        cases hhmac : lb64decode hmac with
        | none => exact .inl (by simp only [Host.doAuth, hsplit, hp, hidx, hhmac])
        | some signature =>
          by_cases hle : idx ≤ (s.players p).version
          · exact .inr (.inl ⟨"403 Index Expired", by
              simp only [Host.doAuth, hsplit, hp, hidx, hhmac, if_pos hle]⟩)
          · by_cases hsign : h.sumhexa (name ++ 58 :: index ++ (s.players p).secret) = signature
            · refine .inr (.inr ⟨name, index, hmac, p, idx, rfl, hp, hidx, by rw [hhmac, hsign],
                not_le.mp hle, ?_⟩)
              simp only [Host.doAuth, hsplit, hp, hidx, hhmac, if_neg hle, hsign, ne_eq,
                not_true_eq_false, if_false]
            · exact .inr (.inl ⟨"401 Unauthorized", by
                simp only [Host.doAuth, hsplit, hp, hidx, hhmac, if_neg hle, ne_eq, hsign,
                  not_false_eq_true, if_true]⟩)

lemma Inv.refuse (hs : Inv h log held s) (fd : ℕ) (result : String) :
    Inv h log held (s.refuse fd result) :=
  ((hs.emit (o := .sent fd result) trivial trivial).closeclient fd).clearHandshake fd

lemma Inv.authEnd (hs : Inv h log held s) (fd : ℕ) : Inv h log held (s.authEnd fd) :=
  (hs.emit (o := .sent fd "200 OK") trivial trivial).clearHandshake fd

lemma Inv.authHandler (hs : Inv h log [] s) (name : List UInt8) (fd : ℕ) (ip : List UInt8) :
    Inv h log [] (h.authHandler s name fd ip) := by
  rw [Host.authHandler]
  split
  · exact hs.raise (by simp) (by simp)
  · exact (hs.emit (o := .called _ _) trivial trivial).awaitIdle rfl trivial trivial

lemma Inv.onlineHandler (hs : Inv h log [] s) (name : List UInt8) (fd : ℕ) :
    Inv h log [] (h.onlineHandler s name fd) := by
  rw [Host.onlineHandler]
  split
  · exact hs.raise (by simp) (by simp)
  · exact (hs.emit (o := .called _ _) trivial trivial).awaitIdle rfl trivial trivial

lemma Inv.auth (hs : Inv h log [] s) (fd : ℕ) (addr message : List UInt8) :
    Inv h log [] (h.auth s fd addr message) := by
  rw [Host.auth]
  rcases h.doAuth_cases s fd message addr with hcase | ⟨result, hcase⟩ |
    ⟨name, index, hmac, p, idx, hsplit, hp, -, -, hlt, hcase⟩
  · simp only [hcase]
    exact hs.refuse fd _
  · simp only [hcase]
    exact hs.refuse fd _
  · have hattach : Inv h log [] ((s.dropBefore (s.players p)).attach fd p addr name idx) :=
      (hs.dropBefore _).attach (by rwa [State.dropBefore_userOnline]) (hs.dropBefore_ne p)
        (by rwa [State.dropBefore_players])
    simp only [hcase]
    split
    · exact hattach.authHandler _ fd _
    · exact hattach.authEnd fd

/-- What a client sends. -/
lemma Inv.data (hs : Inv h log [] s) (fd : ℕ) (message : List UInt8) :
    Inv h log [] (h.data s fd message) := by
  rw [Host.data]
  split_ifs with hopen
  · exact hs.emit (o := .dropped fd) trivial trivial
  · split
    · exact hs.auth fd _ message
    · split
      · exact hs.raise (by simp) (by simp)
      · rename_i p hp
        obtain ⟨-, honline, hholder⟩ := hs.attached.connection fd p hp
        obtain ⟨⟨u, hu⟩, hlogin⟩ := hs.accounts.online _ p honline
        obtain ⟨hname, hknown⟩ := hs.accounts.map _ u hu
        rw [State.requestHandler, hu]
        refine hs.emit (o := .forwarded _ _ _ _) trivial
          ⟨hs.attached.opened fd (not_not.mp hopen),
            fun fd' =>
              ⟨fun hfd' => Sessions.holder_inj s.out hfd' hholder, fun heq => heq ▸ hholder⟩,
            hlogin, u.uid, u.subid, ?_, hknown.2⟩
        rw [← hname, hknown.1]

/-! ### Logging in and out -/

lemma Named.le_of_mem_pending (hs : Named h log held s) {id : ℕ} (hid : id ∈ s.pending) :
    id ≤ log.length := by
  obtain ⟨w, hw, hmem⟩ := List.mem_flatMap.mp hid
  have hn := hs.waiting w hw
  cases w with
  | newAgent uid id' name secret =>
    obtain rfl := List.mem_singleton.mp hmem
    exact IsLogin.le hn
  | agentLogin u id' secret =>
    obtain rfl := List.mem_singleton.mp hmem
    exact IsLogin.le hn
  | _ => simp [Waiting.ids] at hmem

/-- The login server asks for another login. -/
lemma Inv.ask (hs : Inv h log [] s) (l : ℤ × List UInt8) :
    Inv h (log ++ [l]) [s.internalId + 1] { s with internalId := s.internalId + 1 } := by
  have hcount := hs.named.count
  have hnew : ∀ {id}, id ≤ log.length → id ∉ [] ++ s.pending →
      id ∉ [s.internalId + 1] ++ s.pending := by
    intro id hle hid
    simp only [List.nil_append, List.singleton_append, List.mem_cons, not_or] at hid ⊢
    exact ⟨by omega, hid⟩
  refine ⟨{ hs.attached with }, ?_, { hs.accounts with }, hs.safe⟩
  refine ⟨?_, ?_, ?_, ?_, ?_, hs.named.distinct, ?_⟩
  · simp [hcount]
  · refine List.nodup_append.mpr ⟨List.nodup_singleton _, hs.named.nodup, ?_⟩
    intro a ha b hb
    have hle := hs.named.le_of_mem_pending hb
    rw [List.mem_singleton.mp ha]
    omega
  · intro w hw
    have hn := hs.named.waiting w hw
    cases w with
    | newAgent uid id name secret => exact IsLogin.append hn l
    | agentLogin u id secret => exact IsLogin.append hn l
    | _ => trivial
  · intro name p hp
    obtain ⟨uid, id, hlogin, hid⟩ := hs.named.online name p hp
    exact ⟨uid, id, hlogin.append l, hnew hlogin.le hid⟩
  · intro name id hmem
    obtain ⟨⟨uid, secret, hlogin⟩, hid⟩ := hs.named.loggedIn name id hmem
    exact ⟨⟨uid, secret, hlogin.append l⟩, hnew hlogin.le hid⟩
  · intro fd name idx hmem
    obtain ⟨⟨uid, id, secret, hlogin, hid⟩, hle⟩ := hs.named.accepted fd name idx hmem
    exact ⟨⟨uid, id, secret, hlogin.append l, hnew hlogin.le hid⟩, hle⟩

lemma Inv.setUser (hs : Inv h log held s) {u : Account} (hu : u.Known h s.out) :
    Inv h log held { s with users := Function.update s.users (h.number u.uid) (some u) } := by
  refine ⟨{ hs.attached with }, { hs.named with }, { hs.accounts with users := ?_ }, hs.safe⟩
  intro x u' hu'
  simp only [Function.update_apply] at hu'
  split_ifs at hu' with hx
  · obtain rfl := Option.some.inj hu'
    exact ⟨hx.symm, hu⟩
  · exact hs.accounts.users x u' hu'

/-- The agent of a login is told. -/
lemma Inv.loginAgent {u : Account} {id : ℕ} {secret : List UInt8} (hs : Inv h log [id] s)
    (hu : u.Known h s.out) (hl : IsLogin h log u.username u.uid id secret) :
    Inv h log [] (h.loginAgent s u id secret) := by
  have hemit := (hs.setUser hu).emit (o := .called u.agent (.login u.uid id secret)) trivial trivial
  exact hemit.await (w := .agentLogin u id secret) hl (hu.mono (List.subset_append_left _ _))

lemma Inv.disconnect (hs : Inv h log held s) (name : List UInt8) :
    Inv h log held (s.disconnect name) ∧ s.out ⊆ (s.disconnect name).out := by
  rw [State.disconnect]
  split
  · exact ⟨hs, List.Subset.refl _⟩
  · split
    · exact ⟨hs, List.Subset.refl _⟩
    · refine ⟨hs.closeclient _, ?_⟩
      rw [State.closeclient]
      split_ifs
      · exact List.subset_append_left _ _
      · exact List.Subset.refl _

lemma Inv.login (hs : Inv h log [] s) (uid : ℤ) (secret : List UInt8) :
    Inv h (log ++ [(uid, secret)]) [] (h.login s uid secret) := by
  have hask := hs.ask (uid, secret)
  have hlogin : IsLogin h (log ++ [(uid, secret)])
      (username uid (s.internalId + 1 : ℕ) h.servername) uid (s.internalId + 1) secret := by
    refine ⟨by omega, ?_, rfl⟩
    simp [hs.named.count]
  rw [Host.login]
  simp only
  cases hu : s.users (h.number uid) with
  | none => exact hask.await (w := .newAgent uid (s.internalId + 1) _ secret) hlogin trivial
  | some old =>
    obtain ⟨hnumber, hknown⟩ := hs.accounts.users _ old hu
    have huid : old.uid = uid := h.number.injective hnumber
    obtain ⟨hdis, hle⟩ := hask.disconnect old.username
    exact hdis.loginAgent (u := ⟨_, old.agent, uid, _⟩)
      ⟨rfl, hle (huid ▸ hknown.2)⟩ hlogin

/-- No login in progress is under the name of one that is complete. -/
lemma Named.userOnline_eq_none {id : ℕ} {name secret : List UInt8} {uid : ℤ}
    (hs : Named h log [id] s) (hl : IsLogin h log name uid id secret) :
    s.userOnline name = none := by
  cases hp : s.userOnline name with
  | none => rfl
  | some p =>
    obtain ⟨uid', id', hlogin, hid⟩ := hs.online name p hp
    exact absurd (hl.id_eq hlogin ▸ List.mem_cons_self) hid

lemma Inv.setMap (hs : Inv h log held s) {u : Account} (hu : u.Known h s.out) :
    Inv h log held { s with usernameMap := Function.update s.usernameMap u.username (some u) } := by
  refine ⟨{ hs.attached with }, { hs.named with }, { hs.accounts with map := ?_, online := ?_ },
    hs.safe⟩
  · intro name u' hu'
    simp only [Function.update_apply] at hu'
    split_ifs at hu' with hname
    · obtain rfl := Option.some.inj hu'
      exact ⟨hname.symm, hu⟩
    · exact hs.accounts.map name u' hu'
  · intro name p hp
    refine ⟨?_, (hs.accounts.online name p hp).2⟩
    simp only [Function.update_apply]
    split_ifs with hname
    · exact ⟨u, rfl⟩
    · exact (hs.accounts.online name p hp).1

/-- A new object, under a name that no object had. -/
lemma Inv.complete {id : ℕ} {uid : ℤ} {name secret : List UInt8} (hs : Inv h log [id] s)
    (hl : IsLogin h log name uid id secret) (hmap : ∃ u, s.usernameMap name = some u) :
    Inv h log [] ({ s.setPlayer s.allocated ⟨secret, h.number 0, name, none, []⟩ with
      allocated := s.allocated + 1
      userOnline := Function.update s.userOnline name (some s.allocated) }.emit
        (.loggedIn name id)) := by
  have hnone := hs.named.userOnline_eq_none hl
  have hrest : ∀ {id'}, id' ∉ [id] ++ s.pending → id' ≠ id ∧ id' ∉ [] ++ s.pending := by
    intro id' hid
    simpa using hid
  -- the objects that there are keep their place
  have hold : ∀ {name' p}, s.userOnline name' = some p → name' ≠ name ∧ p ≠ s.allocated := by
    intro name' p hp
    refine ⟨?_, (hs.attached.object name' p hp).1.ne⟩
    rintro rfl
    simp [hnone] at hp
  have hcases : ∀ {name' p}, Function.update s.userOnline name (some s.allocated) name' = some p →
      name' = name ∧ p = s.allocated ∨ s.userOnline name' = some p := by
    intro name' p hp
    rw [Function.update_apply] at hp
    split_ifs at hp with heq
    · exact .inl ⟨heq, (Option.some.inj hp).symm⟩
    · exact .inr hp
  refine ⟨⟨?_, ?_, ?_⟩, ⟨hs.named.count, ?_, hs.named.waiting, ?_, ?_, ?_, ?_⟩, ?_,
    hs.safe.append trivial⟩
  · intro fd hfd
    rw [State.emit, Sessions.after_append]
    exact hs.attached.opened fd hfd
  · intro name' p hp
    rcases hcases hp with ⟨rfl, rfl⟩ | hp
    · simp [State.emit, State.setPlayer]
    · obtain ⟨hlt, hname⟩ := hs.attached.object name' p hp
      refine ⟨Nat.lt_succ_of_lt hlt, ?_⟩
      simpa [State.emit, State.setPlayer, Function.update_apply, (hold hp).2] using hname
  · intro fd p hp
    obtain ⟨hsocket, honline, hholder⟩ := hs.attached.connection fd p hp
    obtain ⟨hname, hne⟩ := hold honline
    rw [State.emit, Sessions.after_append]
    simpa [State.setPlayer, Function.update_apply, hne, hname, Sessions.next] using
      ⟨hsocket, honline, hholder⟩
  · exact (List.nodup_append.mp hs.named.nodup).2.1
  · intro name' p hp
    rcases hcases hp with ⟨rfl, rfl⟩ | hp
    · refine ⟨uid, id, by simpa [State.emit, State.setPlayer] using hl, ?_⟩
      have hnodup := (List.nodup_append.mp hs.named.nodup).2.2
      exact fun hid => hnodup id List.mem_cons_self id hid rfl
    · obtain ⟨uid', id', hlogin, hid⟩ := hs.named.online name' p hp
      refine ⟨uid', id', ?_, (hrest hid).2⟩
      simpa [State.emit, State.setPlayer, Function.update_apply, (hold hp).2] using hlogin
  · intro name' id' hmem
    rcases List.mem_append.mp hmem with hmem | hmem
    · obtain ⟨hlogin, hid⟩ := hs.named.loggedIn name' id' hmem
      exact ⟨hlogin, (hrest hid).2⟩
    · obtain ⟨rfl, rfl⟩ : name' = name ∧ id' = id := by simpa using hmem
      have hnodup := (List.nodup_append.mp hs.named.nodup).2.2
      exact ⟨⟨uid, secret, hl⟩, fun hid => hnodup id' List.mem_cons_self id' hid rfl⟩
  · refine List.pairwise_append.mpr ⟨hs.named.distinct, List.pairwise_singleton _ _, ?_⟩
    rintro o ho o' ho' name₁ id₁ name₂ id₂ rfl rfl
    obtain ⟨rfl, rfl⟩ : name₂ = name ∧ id₂ = id := by simpa using ho'
    exact (hrest (hs.named.loggedIn name₁ id₁ ho).2).1
  · intro fd name' idx hmem
    rcases List.mem_append.mp hmem with hmem | hmem
    · obtain ⟨⟨uid', id', secret', hlogin, hid⟩, hle⟩ := hs.named.accepted fd name' idx hmem
      refine ⟨⟨uid', id', secret', hlogin, (hrest hid).2⟩, fun p hp => ?_⟩
      rcases hcases hp with ⟨rfl, rfl⟩ | hp
      · exact absurd (hlogin.id_eq hl) (hrest hid).1
      · simpa [State.emit, State.setPlayer, Function.update_apply, (hold hp).2] using hle p hp
    · simp at hmem
  · have haccounts : Accounts h (s.emit (.loggedIn name id)) := hs.accounts.emit _
    refine { haccounts with online := fun name' p hp => ?_ }
    rcases hcases hp with ⟨rfl, rfl⟩ | hp
    · exact ⟨hmap, id, by simp [State.emit]⟩
    · exact haccounts.online name' p hp

/-- The end of a login. -/
lemma Inv.loginEnd {u : Account} {id : ℕ} {secret : List UInt8} (hs : Inv h log [id] s)
    (hu : u.Known h s.out) (hl : IsLogin h log u.username u.uid id secret) :
    Inv h log [] (h.loginEnd s u id secret) := by
  rw [Host.loginEnd]
  simp only [hs.named.userOnline_eq_none hl, ne_eq, not_true_eq_false, if_false]
  exact (hs.setMap hu).complete hl ⟨u, by simp⟩

/-- An account is forgotten with its name. -/
lemma Inv.forget (hs : Inv h log held s) (x : ν) {name : List UInt8}
    (hname : s.userOnline name = none) :
    Inv h log held { s with
      users := Function.update s.users x none
      usernameMap := Function.update s.usernameMap name none } := by
  refine ⟨{ hs.attached with }, { hs.named with }, ⟨?_, ?_, hs.accounts.waiting, ?_⟩, hs.safe⟩
  · intro x' u hu
    simp only [Function.update_apply] at hu
    split_ifs at hu
    exact hs.accounts.users x' u hu
  · intro name' u hu
    simp only [Function.update_apply] at hu
    split_ifs at hu
    exact hs.accounts.map name' u hu
  · intro name' p hp
    have hne : name' ≠ name := by
      rintro rfl
      simp [hname] at hp
    simpa [Function.update_apply, hne] using hs.accounts.online name' p hp

omit [LinearOrder ν] in
lemma State.logout_userOnline (s : State ν) (name : List UInt8) :
    (s.logout name).userOnline name = none := by
  rw [State.logout]
  split
  · simp [State.emit]
  · split
    · simp [State.emit]
    · rw [State.closeclient_clearConnection, State.closeclient]
      split_ifs <;> simp [State.emit, State.clearConnection]

lemma Inv.logoutHandler (hs : Inv h log [] s) (uid subid : ℤ) :
    Inv h log [] (h.logout s uid subid) := by
  rw [Host.logout]
  split
  · exact hs
  · split_ifs
    · exact hs.raise (by simp) (by simp)
    · exact (hs.logout _).forget _ (s.logout_userOnline _)

/-! ### Runs -/

/-- The answer to a call takes the logins of the call along. -/
lemma Inv.take (hs : Inv h log [] s) {i : ℕ} {w : Waiting} (hw : s.waiting[i]? = some w) :
    Inv h log w.ids { s with waiting := s.waiting.eraseIdx i } := by
  obtain ⟨hi, hget⟩ := List.getElem?_eq_some_iff.mp hw
  have hperm : (w.ids ++ (s.waiting.eraseIdx i).flatMap Waiting.ids).Perm s.pending := by
    have hwait := (List.getElem_cons_eraseIdx_perm hi).flatMap_right Waiting.ids
    rwa [hget, List.flatMap_cons] at hwait
  have hiff : ∀ id, id ∉ w.ids ++ (s.waiting.eraseIdx i).flatMap Waiting.ids ↔
      id ∉ [] ++ s.pending := by
    intro id
    rw [hperm.mem_iff, List.nil_append]
  have hsub : ∀ w' ∈ s.waiting.eraseIdx i, w' ∈ s.waiting :=
    fun w' hw' => List.eraseIdx_subset hw'
  have hn : Named h log w.ids { s with waiting := s.waiting.eraseIdx i } :=
    { hs.named with
      nodup := hperm.nodup_iff.mpr (by simpa using hs.named.nodup)
      waiting := fun w' hw' => hs.named.waiting w' (hsub w' hw')
      online := by
        simp only [State.pending, hiff]
        exact hs.named.online
      loggedIn := by
        simp only [State.pending, hiff]
        exact hs.named.loggedIn
      accepted := by
        simp only [State.pending, hiff]
        exact hs.named.accepted }
  exact ⟨{ hs.attached with }, hn,
    { hs.accounts with waiting := fun w' hw' => hs.accounts.waiting w' (hsub w' hw') }, hs.safe⟩

/-- An event that ends gives its logins up. -/
lemma Inv.giveUp (hs : Inv h log held s) : Inv h log [] s := by
  have hrest : ∀ {id}, id ∉ held ++ s.pending → id ∉ [] ++ s.pending := by
    intro id hid
    simpa using fun hmem => hid (List.mem_append_right _ hmem)
  refine ⟨hs.attached, ?_, hs.accounts, hs.safe⟩
  refine ⟨hs.named.count, (List.nodup_append.mp hs.named.nodup).2.1, hs.named.waiting, ?_, ?_,
    hs.named.distinct, ?_⟩
  · intro name p hp
    obtain ⟨uid, id, hlogin, hid⟩ := hs.named.online name p hp
    exact ⟨uid, id, hlogin, hrest hid⟩
  · intro name id hmem
    exact (hs.named.loggedIn name id hmem).imp_right hrest
  · intro fd name idx hmem
    obtain ⟨⟨uid, id, secret, hlogin, hid⟩, hle⟩ := hs.named.accepted fd name idx hmem
    exact ⟨⟨uid, id, secret, hlogin, hrest hid⟩, hle⟩

/-- A call is answered. -/
lemma Inv.resume {w : Waiting} (hs : Inv h log w.ids s) (hnamed : w.Named h log)
    (hknown : w.Known h s.out) (agent : ℕ) : Inv h log [] (h.resume s w agent) := by
  cases w with
  | newAgent uid id name secret =>
    have hemit := hs.emit (o := .created agent uid) trivial trivial
    exact hemit.loginAgent (u := ⟨name, agent, uid, id⟩) ⟨hnamed.2.2, by simp [State.emit]⟩ hnamed
  | agentLogin u id secret => exact hs.loginEnd hknown hnamed
  | agentAuth fd name => exact Inv.onlineHandler hs name fd
  | agentOnline fd => exact Inv.authEnd hs fd
  | agentAfk fd => exact Inv.closeFd hs fd

/-- Every event keeps the tables in agreement with what has happened. -/
lemma Inv.next (hs : Inv h log [] s) (e : Event) :
    Inv h (log ++ logins [e]) [] (h.next s e) := by
  cases e with
  | opening fd addr => simpa [logins, Host.next] using hs.opening fd addr
  | data fd message => simpa [logins, Host.next] using hs.data fd message
  | closing fd => simpa [logins, Host.next] using hs.closing fd
  | login uid secret => exact hs.login uid secret
  | logout uid subid => simpa [logins, Host.next] using hs.logoutHandler uid subid
  | answer i agent =>
    rw [show logins [.answer i agent] = [] from rfl, List.append_nil, Host.next]
    cases hw : s.waiting[i]? with
    | none => exact hs
    | some w =>
      have htake := hs.take hw
      have hmem := List.mem_of_getElem? hw
      cases agent with
      | none => exact (htake.giveUp).raise (by simp) (by simp)
      | some agent =>
        exact htake.resume (hs.named.waiting w hmem) (hs.accounts.waiting w hmem) agent

lemma Inv.start : Inv h [] [] h.start where
  attached := ⟨by simp [Host.start], by simp [Host.start], by simp [Host.start]⟩
  named := ⟨rfl, List.nodup_nil, by simp [Host.start], by simp [Host.start], by simp [Host.start],
    List.Pairwise.nil, by simp [Host.start]⟩
  accounts := ⟨by simp [Host.start], by simp [Host.start], by simp [Host.start],
    by simp [Host.start]⟩
  safe := by
    intro past o future heq
    simp [Host.start] at heq

variable (h)

lemma Host.run_append (es : List Event) (e : Event) :
    h.run (es ++ [e]) = h.next (h.run es) e := by simp [Host.run]

/-- The tables agree with what has happened after every sequence of events. -/
lemma Host.run_inv (es : List Event) : Inv h (logins es) [] (h.run es) := by
  induction es using List.reverseRecOn with
  | nil => exact Inv.start
  | append_singleton es e ih =>
    rw [Host.run_append, logins, List.filterMap_append]
    exact ih.next e

/-- In every run, a message goes on only from an open socket that alone holds a login that was
completed, to an agent that was started for the player of that login.

**Proof sketch.** What the tables of the service say follows from what it has done: a socket in
`connection` is the socket of its object, the object is the one of its name, and the last thing
that was done with this socket or with this name was the handshake. The invariant is carried
through every update of the tables. Where an object gives a socket up before the tables say so, or
a name is given up, the updates commute. -/
theorem Host.run_safe (es : List Event) : Safe h (h.run es).out := (h.run_inv es).safe

/-- In every run, the logins that are completed were asked for, no two of them have the same number
or the same name, and neither the assertion that a name is new nor the look-up of a player's
account ever fails.

**Proof sketch.** A login has its number from its first step on. The numbers of the logins under
way are different, and no login that is complete has one of them: that is kept when a login is
asked for, when its agent is there, and when it is complete. A name determines the number. -/
theorem Host.run_logins (es : List Event) :
    (∀ name id, .loggedIn name id ∈ (h.run es).out →
      ∃ uid secret, IsLogin h (logins es) name uid id secret) ∧
    (h.run es).out.Pairwise (fun o o' => ∀ name id name' id', o = .loggedIn name id →
      o' = .loggedIn name' id' → id ≠ id' ∧ name ≠ name') ∧
    .raised .alreadyOnline ∉ (h.run es).out ∧ .raised .noAccount ∉ (h.run es).out := by
  have hs := h.run_inv es
  have hlogin : ∀ name id, .loggedIn name id ∈ (h.run es).out →
      ∃ uid secret, IsLogin h (logins es) name uid id secret :=
    fun name id hmem => (hs.named.loggedIn name id hmem).1
  have hfault : ∀ fault, .raised fault ∈ (h.run es).out →
      fault ≠ .alreadyOnline ∧ fault ≠ .noAccount := by
    intro fault hmem
    obtain ⟨past, future, heq⟩ := List.append_of_mem hmem
    exact hs.safe past _ future heq
  refine ⟨hlogin, ?_, fun hmem => (hfault _ hmem).1 rfl, fun hmem => (hfault _ hmem).2 rfl⟩
  refine hs.named.distinct.imp_of_mem ?_
  rintro o o' ho ho' hne name id name' id' rfl rfl
  have hid : id ≠ id' := hne name id name' id' rfl rfl
  refine ⟨hid, ?_⟩
  rintro rfl
  obtain ⟨uid, secret, hl⟩ := hlogin name id ho
  obtain ⟨uid', secret', hl'⟩ := hlogin name id' ho'
  exact hid (hl.id_eq hl')

end Gate
