import JsmjServer.Gate.Base64
import Mathlib.Data.List.TakeWhile

set_option relaxedAutoImplicit false
set_option autoImplicit false

/-!
# The names of the gate server

`server.username` and `server.userid` of `lualib/snax/gatewayserver.lua`: the name of a login says
who the player is, at which server, and which of its logins it was.

## Main definitions

* `Gate.tostring` — an integer in decimal.
* `Gate.username`, `Gate.userid` — from the three parts to the name, and back.
* `Gate.splitHandshake` — the parts of the first message of a client.

## Main results

* `Gate.username_inj` — logins with different parts have different names.
* `Gate.handshake_roundTrip` — what the server reads in the first message of a client.
-/

namespace Gate

/-! ### The program -/

/-- `tostring` of a natural number. -/
def decimal (n : ℕ) : List UInt8 := (Nat.toDigits 10 n).map fun c => c.toNat.toUInt8

/-- `tostring` of an integer. -/
def tostring : ℤ → List UInt8
  | .ofNat n => decimal n
  | .negSucc n => 45 :: decimal (n + 1)

/-- `server.username`: `%s@%s#%s`. -/
def username (uid subid : ℤ) (servername : List UInt8) : List UInt8 :=
  lb64encode (tostring uid) ++ 64 :: lb64encode servername ++ 35 :: lb64encode (tostring subid)

/-- What the pattern `([^c]*)c` takes from the front of a string, and the rest. -/
def cut (c : UInt8) (s : List UInt8) : Option (List UInt8 × List UInt8) :=
  match s.dropWhile (· ≠ c) with
  | [] => none
  | _ :: rest => some (s.takeWhile (· ≠ c), rest)

/-- `server.userid`, with the pattern `([^@]*)@([^#]*)#(.*)`; `none` when it raises an error. -/
def userid (name : List UInt8) : Option (List UInt8 × List UInt8 × List UInt8) := do
  let (uid, rest) ← cut 64 name
  let (servername, subid) ← cut 35 rest
  let uid ← lb64decode uid
  let subid ← lb64decode subid
  let servername ← lb64decode servername
  return (uid, subid, servername)

/-- `string.match(message, "([^:]*):([^:]*):([^:]*)")`. -/
def splitHandshake (message : List UInt8) : Option (List UInt8 × List UInt8 × List UInt8) := do
  let (name, rest) ← cut 58 message
  let (index, rest) ← cut 58 rest
  return (name, index, rest.takeWhile (· ≠ 58))

/-! ### Decimal numbers -/

/-- The digits of a number are below 256, and none of them is the sign. -/
lemma toNat_of_mem_toDigits {n : ℕ} {c : Char} (h : c ∈ Nat.toDigits 10 n) :
    48 ≤ c.toNat ∧ c.toNat ≤ 57 := by
  have hdigit := Nat.isDigit_of_mem_toDigits (by decide) (by decide) h
  simp only [Char.isDigit, Bool.and_eq_true, decide_eq_true_eq, ge_iff_le,
    UInt32.le_iff_toNat_le] at hdigit
  exact hdigit

lemma map_ofNat_decimal (n : ℕ) :
    (decimal n).map (fun b => Char.ofNat b.toNat) = Nat.toDigits 10 n := by
  rw [decimal, List.map_map]
  conv_rhs => rw [← List.map_id (Nat.toDigits 10 n)]
  refine List.map_congr_left fun c hc => ?_
  have hle := (toNat_of_mem_toDigits hc).2
  have hmod : c.toNat.toUInt8.toNat = c.toNat := Nat.mod_eq_of_lt (by omega)
  simp [hmod]

lemma decimal_injective : Function.Injective decimal := by
  intro m n h
  rw [← Nat.ofDigitChars_ten_toDigits (n := m), ← map_ofNat_decimal, h, map_ofNat_decimal,
    Nat.ofDigitChars_ten_toDigits]

lemma not_mem_decimal (n : ℕ) : 45 ∉ decimal n := by
  intro h
  obtain ⟨c, hc, heq⟩ := List.mem_map.mp h
  have hle := toNat_of_mem_toDigits hc
  have hmod : c.toNat.toUInt8.toNat = c.toNat := Nat.mod_eq_of_lt (by omega)
  rw [heq] at hmod
  have : (45 : UInt8).toNat = 45 := rfl
  omega

lemma tostring_injective : Function.Injective tostring := by
  intro i j h
  match i, j with
  | .ofNat m, .ofNat n => rw [decimal_injective h]
  | .negSucc m, .negSucc n =>
    have hsucc : m + 1 = n + 1 := decimal_injective (List.cons.inj h).2
    rw [Nat.succ.inj hsucc]
  | .ofNat m, .negSucc n =>
    have heq : decimal m = 45 :: decimal (n + 1) := h
    exact absurd (heq ▸ List.mem_cons_self) (not_mem_decimal m)
  | .negSucc m, .ofNat n =>
    have heq : 45 :: decimal (m + 1) = decimal n := h
    exact absurd (heq ▸ List.mem_cons_self) (not_mem_decimal n)

/-! ### Names -/

lemma cut_append {c : UInt8} {s : List UInt8} (h : c ∉ s) (rest : List UInt8) :
    cut c (s ++ c :: rest) = some (s, rest) := by
  have hall : ∀ x ∈ s, decide (x ≠ c) = true := by
    intro x hx
    have hne : x ≠ c := ne_of_mem_of_not_mem hx h
    simpa using hne
  rw [cut, List.dropWhile_append_of_pos hall, List.takeWhile_append_of_pos hall]
  simp

lemma not_mem_lb64encode {c : UInt8} (h : b64index c = -1) (bytes : List UInt8) :
    c ∉ lb64encode bytes := fun hmem => b64index_of_mem_lb64encode hmem h

lemma userid_username_eq (uid subid : ℤ) (servername : List UInt8) :
    userid (username uid subid servername) =
      some (tostring uid, tostring subid, servername) := by
  have hat : cut 64 (username uid subid servername) = some (lb64encode (tostring uid),
      lb64encode servername ++ 35 :: lb64encode (tostring subid)) := by
    rw [username, List.append_assoc, List.cons_append]
    exact cut_append (not_mem_lb64encode (by decide) _) _
  have hhash := cut_append (c := 35) (not_mem_lb64encode (by decide) servername)
    (lb64encode (tostring subid))
  simp [userid, hat, hhash, lb64decode_lb64encode]

lemma username_inj {uid subid uid' subid' : ℤ} {servername servername' : List UInt8}
    (h : username uid subid servername = username uid' subid' servername') :
    uid = uid' ∧ subid = subid' ∧ servername = servername' := by
  have heq := userid_username_eq uid subid servername
  rw [h, userid_username_eq] at heq
  simp only [Option.some.injEq, Prod.mk.injEq] at heq
  exact ⟨(tostring_injective heq.1).symm, (tostring_injective heq.2.1).symm, heq.2.2.symm⟩

/-- The first message of a client, written as the protocol says: the server takes from it the name,
the index and the signature, and from the name the parts that the login was given.

**Proof sketch.** An encoded text has no `@`, no `#` and no `:`, so that each pattern stops at the
separator that was written, and what is encoded is decoded. -/
theorem handshake_roundTrip (uid subid : ℤ) (servername index hmac : List UInt8) (h : 58 ∉ index) :
    splitHandshake (username uid subid servername ++ 58 :: (index ++ 58 :: lb64encode hmac)) =
        some (username uid subid servername, index, lb64encode hmac) ∧
      lb64decode (lb64encode hmac) = some hmac ∧
      userid (username uid subid servername) =
        some (tostring uid, tostring subid, servername) := by
  refine ⟨?_, lb64decode_lb64encode hmac, userid_username_eq uid subid servername⟩
  have hname : (58 : UInt8) ∉ username uid subid servername := by
    have henc := not_mem_lb64encode (c := 58) (by decide)
    simp [username, henc]
  have hmac' : (lb64encode hmac).takeWhile (· ≠ 58) = lb64encode hmac := by
    refine List.takeWhile_eq_self_iff.mpr fun x hx => ?_
    have hne : x ≠ 58 := ne_of_mem_of_not_mem hx (not_mem_lb64encode (by decide) hmac)
    simpa using hne
  simp only [splitHandshake, cut_append hname, cut_append h, hmac', Option.bind_eq_bind,
    Option.bind_some, Option.pure_def]

/-- The first message of player 7 after its first login at the server `g`. -/
theorem handshake_first : splitHandshake (username 7 1 [103] ++ 58 :: ([49] ++ 58 ::
    lb64encode [97])) = some (username 7 1 [103], [49], lb64encode [97]) ∧
      lb64decode (lb64encode [97]) = some [97] ∧
      userid (username 7 1 [103]) = some (tostring 7, tostring 1, [103]) :=
  handshake_roundTrip 7 1 [103] [49] [97] (by decide)

end Gate
