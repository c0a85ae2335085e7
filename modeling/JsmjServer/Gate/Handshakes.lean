import JsmjServer.Gate.Safety

set_option relaxedAutoImplicit false
set_option autoImplicit false

/-!
# The handshakes of the gate server

A socket is let in for a login only by the secret that the login server gave for it, and what let a
socket in never does so again.

## Main definitions

* `Gate.State.accepts` — the handshakes that have succeeded.

## Main results

* `Gate.Host.accepts_next` — what one event adds to them.
* `Gate.Host.run_authentic` — so in every run.
-/

namespace Gate

variable {ν : Type*}

/-- The handshakes that have succeeded: the socket, the name and the index of each. -/
def State.accepts (s : State ν) : List (ℕ × List UInt8 × ν) :=
  s.out.filterMap fun
    | .accepted fd name idx => some (fd, name, idx)
    | _ => none

lemma State.mem_accepts_iff (s : State ν) {fd : ℕ} {name : List UInt8} {idx : ν} :
    (fd, name, idx) ∈ s.accepts ↔ .accepted fd name idx ∈ s.out := by
  rw [State.accepts, List.mem_filterMap]
  constructor
  · rintro ⟨o, ho, heq⟩
    cases o with
    | accepted fd' name' idx' =>
      obtain ⟨rfl, rfl, rfl⟩ : fd' = fd ∧ name' = name ∧ idx' = idx := by simpa using heq
      exact ho
    | _ => simp at heq
  · intro hmem
    exact ⟨_, hmem, rfl⟩

/-! ### What is no handshake -/

section Updates

variable (s : State ν)

@[simp] lemma State.accepts_closeclient (fd : ℕ) : (s.closeclient fd).accepts = s.accepts := by
  rw [State.closeclient]
  split_ifs
  · simp [State.accepts, State.emit]
  · rfl

@[simp] lemma State.accepts_closeFd (fd : ℕ) : (s.closeFd fd).accepts = s.accepts := by
  rw [State.closeFd]
  split_ifs <;> rfl

@[simp] lemma State.accepts_clearHandshake (fd : ℕ) :
    (s.clearHandshake fd).accepts = s.accepts := rfl

@[simp] lemma State.accepts_clearConnection (fd : ℕ) :
    (s.clearConnection fd).accepts = s.accepts := rfl

@[simp] lemma State.accepts_setPlayer (p : ℕ) (u : Player ν) :
    (s.setPlayer p u).accepts = s.accepts := rfl

@[simp] lemma State.accepts_await (w : Waiting) : (s.await w).accepts = s.accepts := rfl

@[simp] lemma State.accepts_raise (fault : Fault) : (s.raise fault).accepts = s.accepts := by
  simp [State.accepts, State.raise, State.emit]

@[simp] lemma State.accepts_called (agent : ℕ) (request : Request ν) :
    (s.emit (.called agent request)).accepts = s.accepts := by simp [State.accepts, State.emit]

@[simp] lemma State.accepts_dropBefore (u : Player ν) : (s.dropBefore u).accepts = s.accepts := by
  rw [State.dropBefore]
  split <;> simp

@[simp] lemma State.accepts_refuse (fd : ℕ) (result : String) :
    (s.refuse fd result).accepts = s.accepts := by
  rw [State.refuse, State.accepts_clearHandshake, State.accepts_closeclient]
  simp [State.accepts, State.emit]

@[simp] lemma State.accepts_authEnd (fd : ℕ) : (s.authEnd fd).accepts = s.accepts := by
  simp [State.accepts, State.authEnd, State.clearHandshake, State.emit]

@[simp] lemma State.accepts_requestHandler (fd : ℕ) (name message : List UInt8) :
    (s.requestHandler fd name message).accepts = s.accepts := by
  rw [State.requestHandler]
  split
  · simp
  · simp [State.accepts, State.emit]

@[simp] lemma State.accepts_disconnect (name : List UInt8) :
    (s.disconnect name).accepts = s.accepts := by
  rw [State.disconnect]
  split
  · rfl
  · split <;> simp

@[simp] lemma State.accepts_logout (name : List UInt8) : (s.logout name).accepts = s.accepts := by
  have hout : ({ s with userOnline := Function.update s.userOnline name none }.emit
      (.loggedOut name)).accepts = s.accepts := by
    simp [State.accepts, State.emit]
  rw [State.logout]
  split
  · exact hout
  · split
    · exact hout
    · rw [State.accepts_clearConnection, State.accepts_closeclient]
      exact hout

@[simp] lemma State.accepts_closing (fd : ℕ) : (s.closing fd).accepts = s.accepts := by
  have hdis : ((s.clearHandshake fd).emit (.disconnected fd)).accepts = s.accepts := by
    simp [State.accepts, State.emit, State.clearHandshake]
  rw [State.closing]
  split
  · rw [State.accepts_closeFd, hdis]
  · simp only
    split
    · rw [State.accepts_closeFd, State.accepts_clearConnection, State.accepts_setPlayer, hdis]
    · rw [State.accepts_await, State.accepts_called, State.accepts_clearConnection,
        State.accepts_setPlayer, hdis]

end Updates

section Host

variable [LinearOrder ν] (h : Host ν) (s : State ν)

@[simp] lemma Host.accepts_opening (fd : ℕ) (addr : List UInt8) :
    (h.opening s fd addr).accepts = s.accepts := by
  rw [Host.opening]
  split_ifs <;> simp [State.accepts, State.emit]

@[simp] lemma Host.accepts_authHandler (name : List UInt8) (fd : ℕ) (ip : List UInt8) :
    (h.authHandler s name fd ip).accepts = s.accepts := by
  rw [Host.authHandler]
  split <;> simp

@[simp] lemma Host.accepts_onlineHandler (name : List UInt8) (fd : ℕ) :
    (h.onlineHandler s name fd).accepts = s.accepts := by
  rw [Host.onlineHandler]
  split <;> simp

@[simp] lemma Host.accepts_loginAgent (u : Account) (id : ℕ) (secret : List UInt8) :
    (h.loginAgent s u id secret).accepts = s.accepts := by
  simp only [Host.loginAgent, State.accepts_await, State.accepts_called]
  rfl

@[simp] lemma Host.accepts_login (uid : ℤ) (secret : List UInt8) :
    (h.login s uid secret).accepts = s.accepts := by
  rw [Host.login]
  simp only
  split
  · rw [Host.accepts_loginAgent, State.accepts_disconnect]
    rfl
  · rfl

@[simp] lemma Host.accepts_loginEnd (u : Account) (id : ℕ) (secret : List UInt8) :
    (h.loginEnd s u id secret).accepts = s.accepts := by
  rw [Host.loginEnd]
  simp only
  split_ifs
  · rw [State.accepts_raise]
    rfl
  · simp [State.accepts, State.emit, State.setPlayer]

@[simp] lemma Host.accepts_logout (uid subid : ℤ) :
    (h.logout s uid subid).accepts = s.accepts := by
  rw [Host.logout]
  split
  · rfl
  · rename_i u _
    split_ifs
    · exact s.accepts_raise _
    · exact s.accepts_logout u.username

@[simp] lemma Host.accepts_resume (w : Waiting) (agent : ℕ) :
    (h.resume s w agent).accepts = s.accepts := by
  cases w with
  | newAgent uid id name secret =>
    rw [Host.resume, Host.accepts_loginAgent]
    simp [State.accepts, State.emit]
  | agentLogin u id secret => exact h.accepts_loginEnd s u id secret
  | agentAuth fd name => exact h.accepts_onlineHandler s name fd
  | agentOnline fd => exact s.accepts_authEnd fd
  | agentAfk fd => exact s.accepts_closeFd fd

/-! ### What is one -/

lemma Host.accepts_auth (fd : ℕ) (addr message : List UInt8) :
    (h.auth s fd addr message).accepts = s.accepts ∨
    ∃ name index hmac p idx, splitHandshake message = some (name, index, hmac) ∧
      s.userOnline name = some p ∧ h.tonumber index = some idx ∧
      lb64decode hmac = some (h.sumhexa (name ++ 58 :: index ++ (s.players p).secret)) ∧
      (s.players p).version < idx ∧
      (h.auth s fd addr message).accepts = s.accepts ++ [(fd, name, idx)] := by
  rcases h.doAuth_cases s fd message addr with hcase | ⟨result, hcase⟩ |
    ⟨name, index, hmac, p, idx, hsplit, hp, hindex, hhmac, hlt, hcase⟩
  · left
    rw [Host.auth, hcase]
    exact s.accepts_refuse fd _
  · left
    rw [Host.auth, hcase]
    exact s.accepts_refuse fd _
  · refine .inr ⟨name, index, hmac, p, idx, hsplit, hp, hindex, hhmac, hlt, ?_⟩
    have hattach : ((s.dropBefore (s.players p)).attach fd p addr name idx).accepts =
        s.accepts ++ [(fd, name, idx)] := by
      rw [← s.accepts_dropBefore (s.players p)]
      simp [State.accepts, State.attach, State.emit, State.setPlayer]
    rw [Host.auth, hcase]
    simp only
    split
    · rw [Host.accepts_authHandler, hattach]
    · rw [State.accepts_authEnd, hattach]

/-- What one event adds to the handshakes that have succeeded: one, when it is a message that the
secret of the object signs, with an index above its version. -/
lemma Host.accepts_next (e : Event) :
    (h.next s e).accepts = s.accepts ∨
    ∃ fd message name index hmac p idx, e = .data fd message ∧
      splitHandshake message = some (name, index, hmac) ∧ s.userOnline name = some p ∧
      h.tonumber index = some idx ∧
      lb64decode hmac = some (h.sumhexa (name ++ 58 :: index ++ (s.players p).secret)) ∧
      (s.players p).version < idx ∧
      (h.next s e).accepts = s.accepts ++ [(fd, name, idx)] := by
  cases e with
  | opening fd addr => exact .inl (h.accepts_opening s fd addr)
  | data fd message =>
    rw [Host.next, Host.data]
    split_ifs
    · left
      simp [State.accepts, State.emit]
    · split
      · rcases h.accepts_auth s fd _ message with hcase | ⟨name, index, hmac, p, idx, hcase⟩
        · exact .inl hcase
        · exact .inr ⟨fd, message, name, index, hmac, p, idx, rfl, hcase⟩
      · left
        split <;> simp
  | closing fd => exact .inl (s.accepts_closing fd)
  | login uid secret => exact .inl (h.accepts_login s uid secret)
  | logout uid subid => exact .inl (h.accepts_logout s uid subid)
  | answer i agent =>
    left
    rw [Host.next]
    split
    · rfl
    · simp only
      split
      · rw [State.accepts_raise]
        rfl
      · rw [Host.accepts_resume]
        rfl

/-- After any events, the next event lets no socket in, or it is a message from the socket that is
let in: it names a login that was asked for, it is signed with the secret of that login, and its
index is above those of all the messages that let a socket in for this login before.

**Proof sketch.** Only `do_auth` lets a socket in, and it compares with the object of the name. The
object has the secret of the login that the name belongs to, and its version is at least every
index that was used for the name: a name gets one object only, and its version only grows. -/
theorem Host.run_authentic (es : List Event) (e : Event) :
    (h.run (es ++ [e])).accepts = (h.run es).accepts ∨
    ∃ fd message name index hmac idx uid id secret, e = .data fd message ∧
      (h.run (es ++ [e])).accepts = (h.run es).accepts ++ [(fd, name, idx)] ∧
      splitHandshake message = some (name, index, hmac) ∧ h.tonumber index = some idx ∧
      IsLogin h (logins es) name uid id secret ∧
      lb64decode hmac = some (h.sumhexa (name ++ 58 :: index ++ secret)) ∧
      ∀ fd' idx', (fd', name, idx') ∈ (h.run es).accepts → idx' < idx := by
  rw [Host.run_append]
  rcases h.accepts_next (h.run es) e with hcase |
    ⟨fd, message, name, index, hmac, p, idx, he, hsplit, hp, hidx, hhmac, hlt, hcase⟩
  · exact .inl hcase
  · have hs := h.run_inv es
    obtain ⟨uid, id, hlogin, -⟩ := hs.named.online name p hp
    refine .inr ⟨fd, message, name, index, hmac, idx, uid, id, _, he, hcase, hsplit, hidx, hlogin,
      hhmac, fun fd' idx' hmem => ?_⟩
    have hle := (hs.named.accepted fd' name idx' ((State.mem_accepts_iff _).mp hmem)).2 p hp
    exact lt_of_le_of_lt hle hlt

-- player 7 logs in, its socket is let in, and its second message goes on to its agent
example :
    let h : Host ℤ := ⟨[103], 1, (OrderIso.refl ℤ).toOrderEmbedding,
      fun s => some (if s = [49] then 1 else 7), fun s => s⟩
    let name := username 7 1 [103]
    let s := h.run [.opening 1 [9], .login 7 [1], .answer 0 (some 5), .answer 0 (some 0),
      .data 1 (name ++ 58 :: ([49] ++ 58 :: lb64encode (name ++ 58 :: [49] ++ [1]))),
      .answer 0 (some 0), .answer 0 (some 0), .data 1 [4, 6, 0, 0, 0, 0]]
    s.accepts = [(1, name, 1)] ∧ s.out.getLast? matches some (.forwarded 1 _ 5 [4, 6]) := by
  decide +kernel

end Host

end Gate
