import Mathlib.Data.List.Basic
import DocWire.Handshake

/-! # The layout of the request

`Request.parse?` reads the opening message of the handshake by its layout: four bytes that are always
the same, a version, flags, the size of the credential in two bytes, and the credential. It reads back
every request that can be encoded, whatever comes behind it (`Request.parse?_encode?`), so a request
says one thing only. The settings of a client turn down a credential exactly if it has no place in
that layout (`Config.validate_eq_ok_iff`). -/

namespace DocWire

namespace Handshake

/-- What the opening message says, and the bytes behind it. -/
structure Opening where
  version : UInt8
  offersMessagePack : Bool
  offersJson : Bool
  credential : List UInt8
  rest : List UInt8
  deriving DecidableEq, Repr

namespace Request

/-- Reads the opening message off the front of some bytes. -/
def parse? : List UInt8 → Option Opening
  | a :: b :: c :: d :: version :: flags :: high :: low :: more =>
    let size := BigEndian.value [high, low]
    if [a, b, c, d] = magic ∧ size ≤ more.length then
      some ⟨version, flags.toNat.testBit 0, flags.toNat.testBit 1, more.take size, more.drop size⟩
    else none
  | _ => none

variable {r : Request} {bytes : List UInt8}

/-- The credential as it is written: a missing one is empty. -/
def secret (r : Request) : List UInt8 := r.credential.getD []

theorem encode?_eq_error (h : 65535 < r.secret.length) :
    r.encode? = .error (.invalidArgument (.credentialTooLong r.secret.length)) := if_pos h

theorem encode?_eq_ok (h : r.secret.length ≤ 65535) : r.encode? =
    .ok (magic ++ [r.version, r.flags] ++ BigEndian.bytes 2 r.secret.length ++ r.secret) :=
  if_neg (Nat.not_lt.2 h)

/-- **A request can be encoded exactly if the size of its credential fits two bytes.** -/
theorem encode?_eq_ok_iff : (∃ bytes, r.encode? = .ok bytes) ↔ r.secret.length ≤ 65535 := by
  rcases Nat.lt_or_ge 65535 r.secret.length with h | h
  · rw [encode?_eq_error h]
    exact ⟨nofun, fun h' => by omega⟩
  · exact ⟨fun _ => h, fun _ => ⟨_, encode?_eq_ok h⟩⟩

theorem testBit_flags (r : Request) : r.flags.toNat.testBit 0 = (r.preferred == .messagePack) ∧
    r.flags.toNat.testBit 1 = true := by
  unfold flags
  cases r.preferred <;> decide

/-- **A request that is encoded is read back**, whatever comes behind it. -/
theorem parse?_encode? (h : r.encode? = .ok bytes) (rest : List UInt8) : parse? (bytes ++ rest) =
    some ⟨r.version, r.preferred == .messagePack, true, r.secret, rest⟩ := by
  have hl : r.secret.length ≤ 65535 := encode?_eq_ok_iff.1 ⟨bytes, h⟩
  have hb := Except.ok.inj (h.symm.trans (encode?_eq_ok hl))
  have hv : BigEndian.value (BigEndian.bytes 2 r.secret.length) = r.secret.length :=
    BigEndian.value_bytes (Nat.lt_succ_of_le hl)
  obtain ⟨high, low, hs⟩ : ∃ high low, BigEndian.bytes 2 r.secret.length = [high, low] :=
    List.length_eq_two.1 (BigEndian.length_bytes 2 _)
  obtain ⟨h0, h1⟩ := r.testBit_flags
  rw [hs] at hb hv
  rw [hb]
  change (if [(0x53 : UInt8), 0x51, 0x52, 0x4c] = magic ∧
      BigEndian.value [high, low] ≤ (r.secret ++ rest).length then
    some (Opening.mk r.version (r.flags.toNat.testBit 0) (r.flags.toNat.testBit 1)
      ((r.secret ++ rest).take (BigEndian.value [high, low]))
      ((r.secret ++ rest).drop (BigEndian.value [high, low]))) else none) = _
  rw [hv, if_pos ⟨rfl, by simp⟩, h0, h1, List.take_left, List.drop_left]

example : parse? ([0x53, 0x51, 0x52, 0x4c, 1, 3, 0, 2, 7, 8] ++ [9]) =
    some ⟨1, true, true, [7, 8], [9]⟩ := by decide

end Request

end Handshake

namespace Config

open DocWire.Handshake (Request)

/-- The settings without a credential. -/
def anonymous (c : Config) : Config := { c with credential := none }

variable {c : Config}

/-- What is found wrong with the settings if the credential has some size. -/
def faultWith? (c : Config) (size : Nat) : Option ArgumentFault :=
  if c.connectTimeout.isZero then some .zeroConnectTimeout
  else if c.requestTimeout.isZero then some .zeroRequestTimeout
  else if c.frameLimit.toNat < minFrameLength then some .frameLimitTooSmall
  else if maxCredentialSize < size then some .credentialSettingTooLong
  else none

theorem fault?_eq_faultWith? (c : Config) :
    c.fault? = c.faultWith? (Request.ofConfig c).secret.length := rfl

theorem anonymous_fault?_eq (c : Config) : c.anonymous.fault? = c.faultWith? 0 := rfl

theorem faultWith?_eq (c : Config) (size : Nat) :
    c.faultWith? 0 ≠ some .credentialSettingTooLong ∧
      (c.faultWith? 0 ≠ none → c.faultWith? size = c.faultWith? 0) ∧
      (c.faultWith? 0 = none → c.faultWith? size =
        if maxCredentialSize < size then some .credentialSettingTooLong else none) := by
  unfold faultWith?
  by_cases h₁ : c.connectTimeout.isZero = true
  · rw [if_pos h₁, if_pos h₁]
    exact ⟨nofun, fun _ => rfl, nofun⟩
  by_cases h₂ : c.requestTimeout.isZero = true
  · rw [if_neg h₁, if_neg h₁, if_pos h₂, if_pos h₂]
    exact ⟨nofun, fun _ => rfl, nofun⟩
  by_cases h₃ : c.frameLimit.toNat < minFrameLength
  · rw [if_neg h₁, if_neg h₁, if_neg h₂, if_neg h₂, if_pos h₃, if_pos h₃]
    exact ⟨nofun, fun _ => rfl, nofun⟩
  · rw [if_neg h₁, if_neg h₁, if_neg h₂, if_neg h₂, if_neg h₃, if_neg h₃,
      if_neg (Nat.not_lt_zero maxCredentialSize)]
    exact ⟨nofun, fun h => absurd rfl h, fun _ => rfl⟩

/-- The answer to a fault that has been found. -/
def answer : Option ArgumentFault → Except Failure Unit
  | some fault => .error (.invalidArgument fault)
  | none => .ok ()

-- As an equation of functions: a fault of given settings would be computed from their spans.
theorem validate_eq_fun : validate = fun c =>
    match c.fault? with
    | some fault => .error (.invalidArgument fault)
    | none => .ok () := rfl

theorem validate_eq (c : Config) : c.validate = answer c.fault? := by
  have ha : ∀ fault? : Option ArgumentFault, (match fault? with
      | some fault => .error (.invalidArgument fault)
      | none => .ok () : Except Failure Unit) = answer fault? := by
    rintro (_ | fault) <;> rfl
  exact (congrFun validate_eq_fun c).trans (ha c.fault?)

theorem validate_eq_ok : c.validate = .ok () ↔ c.fault? = none := by
  rw [validate_eq]
  generalize c.fault? = fault?
  cases fault? <;> simp [answer]

theorem validate_eq_error {fault : ArgumentFault} :
    c.validate = .error (.invalidArgument fault) ↔ c.fault? = some fault := by
  rw [validate_eq]
  generalize c.fault? = fault?
  cases fault? <;> simp [answer]

/-- **Settings are accepted exactly if they are without the credential, and the credential can be
encoded.** -/
theorem validate_eq_ok_iff : c.validate = .ok () ↔
    c.anonymous.validate = .ok () ∧ ∃ bytes, (Request.ofConfig c).encode? = .ok bytes := by
  obtain ⟨-, hs, hn⟩ := c.faultWith?_eq (Request.ofConfig c).secret.length
  rw [Request.encode?_eq_ok_iff, validate_eq_ok, validate_eq_ok, anonymous_fault?_eq,
    fault?_eq_faultWith?]
  by_cases h0 : c.faultWith? 0 = none
  · rw [hn h0]
    rcases Nat.lt_or_ge maxCredentialSize (Request.ofConfig c).secret.length with h | h
    · rw [if_pos h]
      exact ⟨nofun, fun h' => absurd h'.2 (Nat.not_le.2 h)⟩
    · rw [if_neg (Nat.not_lt.2 h)]
      exact ⟨fun _ => ⟨h0, h⟩, fun _ => rfl⟩
  · rw [hs h0]
    exact ⟨fun h => absurd h h0, fun h => h.1⟩

/-- **It is the credential that is turned down exactly if nothing else is and it cannot be
encoded.** -/
theorem validate_eq_credential_iff :
    c.validate = .error (.invalidArgument .credentialSettingTooLong) ↔
      c.anonymous.validate = .ok () ∧ ∃ e, (Request.ofConfig c).encode? = .error e := by
  obtain ⟨hc, hs, hn⟩ := c.faultWith?_eq (Request.ofConfig c).secret.length
  rw [validate_eq_error, validate_eq_ok, anonymous_fault?_eq, fault?_eq_faultWith?]
  by_cases h0 : c.faultWith? 0 = none
  · rw [hn h0]
    rcases Nat.lt_or_ge maxCredentialSize (Request.ofConfig c).secret.length with h | h
    · rw [if_pos h]
      exact ⟨fun _ => ⟨h0, _, Request.encode?_eq_error h⟩, fun _ => rfl⟩
    · rw [if_neg (Nat.not_lt.2 h), Request.encode?_eq_ok h]
      exact ⟨nofun, fun ⟨_, _, he⟩ => nomatch he⟩
  · rw [hs h0]
    exact ⟨fun h => absurd h hc, fun h => absurd h.1 h0⟩

/-- Settings that are accepted have an opening message; those that are not have the same fault. -/
theorem exists_opening (h : c.validate = .ok ()) : ∃ bytes, c.opening = .ok bytes := by
  obtain ⟨bytes, hb⟩ := (validate_eq_ok_iff.1 h).2
  exact ⟨bytes, by rw [opening, h]; exact hb⟩

theorem opening_eq_error {e : Failure} (h : c.validate = .error e) : c.opening = .error e := by
  rw [opening, h]
  rfl

end Config

end DocWire
