import Mathlib.Data.List.Basic
import Mathlib.Tactic.IntervalCases
import DocWire.Json.Printer
import DocWire.Json.Token

/-! # Numerals in JSON are read back

A numeral is spelled by its digits, with a point before the fraction and a letter and a sign before
the exponent (`Numeral.spell`). Scanning the spelling of a numeral without needless zeros takes
exactly its bytes, if what comes behind cannot go on with the numeral (`scanNumeral?_spell`). The
digits of a natural number have its value and no needless zero (`spells_natDigits`), so an integer is
written as a numeral (`printInt_eq`), and one of 64 bits is an integer again
(`toNode_intNumeral`). -/

namespace DocWire.Json

open DocWire.Decimal (natDigits)

variable {rest : List UInt8} {ds : List Nat} {d : Nat}

/-- Bytes that cannot go on with a numeral. -/
def Ends (rest : List UInt8) : Prop :=
  ∀ b ∈ rest.head?, digit? b = none ∧ b ≠ 0x2e ∧ b ≠ 0x65 ∧ b ≠ 0x45

/-- Bytes that do not start with a digit. -/
def NoDigit (rest : List UInt8) : Prop := ∀ b ∈ rest.head?, digit? b = none

/-- The bytes of decimal digits. -/
def digitBytes (ds : List Nat) : List UInt8 := ascii (ds.map digitChar)

/-! ### Digits -/

theorem digit?_digitChar (hd : d < 10) : digit? (UInt8.ofNat (digitChar d).toNat) = some d := by
  have h : ∀ d < 10, digit? (UInt8.ofNat (digitChar d).toNat) = some d := by decide
  exact h d hd

theorem digitBytes_cons (d : Nat) (ds : List Nat) :
    digitBytes (d :: ds) = UInt8.ofNat (digitChar d).toNat :: digitBytes ds := rfl

theorem scanDigits_of_noDigit (hr : NoDigit rest) (found : List Nat) :
    scanDigits found rest = (found.reverse, rest) := by
  cases rest with
  | nil => rfl
  | cons b rest =>
    have hb : digit? b = none := hr b (by simp)
    rw [scanDigits, hb]

theorem scanDigits_digitBytes (hd : ∀ d ∈ ds, d < 10) (hr : NoDigit rest) (found : List Nat) :
    scanDigits found (digitBytes ds ++ rest) = (found.reverse ++ ds, rest) := by
  induction ds generalizing found with
  | nil => simpa [digitBytes, ascii] using scanDigits_of_noDigit hr found
  | cons d ds ih =>
    rw [digitBytes_cons, List.cons_append, scanDigits, digit?_digitChar (hd d (by simp))]
    dsimp only
    rw [ih fun e he => hd e (by simp [he])]
    simp

theorem scanDigits1?_digitBytes (hd : ∀ d ∈ ds, d < 10) (hn : ds ≠ []) (hr : NoDigit rest) :
    scanDigits1? (digitBytes ds ++ rest) = some (ds, rest) := by
  obtain ⟨d, ds, rfl⟩ := List.exists_cons_of_ne_nil hn
  rw [scanDigits1?, scanDigits_digitBytes hd hr]
  rfl

/-! ### The digits of a natural number -/

theorem natDigits_of_lt {n : Nat} (hn : n < 10) : natDigits n = [n] := by
  have h : (Nat.digitChar n).toNat - '0'.toNat = n := by
    rw [Nat.toNat_digitChar_of_lt_ten hn]
    exact Nat.add_sub_cancel_left _ _
  rw [natDigits, Nat.toDigits_of_lt_base hn, List.map_singleton, h]

theorem natDigits_of_le {n : Nat} (hn : 10 ≤ n) :
    natDigits n = natDigits (n / 10) ++ [n % 10] := by
  have h : (Nat.digitChar (n % 10)).toNat - '0'.toNat = n % 10 := by
    rw [Nat.toNat_digitChar_of_lt_ten (Nat.mod_lt n (by decide))]
    exact Nat.add_sub_cancel_left _ _
  rw [natDigits, Nat.toDigits_of_base_le (by decide) hn, List.map_append, List.map_singleton, h]
  rfl

/-- Digits that start with a zero only if that is all there is. -/
def NoLeadingZero (ds : List Nat) : Prop := ds = [0] ∨ ∃ d tail, ds = d :: tail ∧ d ≠ 0

/-- What holds of the digits of a number: there are no needless ones among them, and they have the
value of the number. -/
structure Spells (ds : List Nat) (n : Nat) : Prop where
  lt : ∀ d ∈ ds, d < 10
  first : NoLeadingZero ds
  value : Numeral.digitsValue ds = n
  chars : Nat.toDigits 10 n = ds.map digitChar

/-- **The digits of a natural number spell it.** -/
theorem spells_natDigits (n : Nat) : Spells (natDigits n) n := by
  induction n using Nat.strongRecOn with
  | ind n ih =>
    by_cases hn : n < 10
    · rw [natDigits_of_lt hn]
      refine ⟨by simpa using hn, ?_, by simp [Numeral.digitsValue], Nat.toDigits_of_lt_base hn⟩
      by_cases h0 : n = 0
      · exact .inl (by rw [h0])
      · exact .inr ⟨n, [], rfl, h0⟩
    · have hn : 10 ≤ n := by omega
      have hx := ih (n / 10) (by omega)
      rw [natDigits_of_le hn]
      refine ⟨fun d hd => ?_, ?_, ?_, ?_⟩
      · rcases List.mem_append.1 hd with hd | hd
        · exact hx.lt d hd
        · rw [List.mem_singleton.1 hd]
          omega
      · rcases hx.first with h0 | ⟨d, tail, ht, hd⟩
        · have hv := hx.value
          rw [h0] at hv
          have : 0 = n / 10 := hv
          omega
        · exact .inr ⟨d, tail ++ [n % 10], by rw [ht]; rfl, hd⟩
      · have hv := hx.value
        unfold Numeral.digitsValue at hv ⊢
        rw [List.foldl_append, hv]
        show n / 10 * 10 + n % 10 = n
        omega
      · rw [Nat.toDigits_of_base_le (by decide) hn, hx.chars, List.map_append]
        rfl

/-! ### Numerals -/

/-- The bytes of a fraction. -/
def fractionBytes : Option (List Nat) → List UInt8
  | none => []
  | some ds => 0x2e :: digitBytes ds

/-- The bytes of an exponent. -/
def exponentBytes : Option Int → List UInt8
  | none => []
  | some n => 0x65 :: (if n < 0 then 0x2d else 0x2b) :: digitBytes (natDigits n.natAbs)

/-- The bytes of a numeral behind its sign. -/
def Numeral.spell (x : Numeral) : List UInt8 :=
  digitBytes x.whole ++ (fractionBytes x.fraction ++ exponentBytes x.exponent)

/-- A numeral that has digits wherever they belong, and no needless zero in front. -/
structure Numeral.Plain (x : Numeral) : Prop where
  whole_lt : ∀ d ∈ x.whole, d < 10
  whole_first : NoLeadingZero x.whole
  fraction : ∀ ds, x.fraction = some ds → ds ≠ [] ∧ ∀ d ∈ ds, d < 10

theorem Ends.noDigit (h : Ends rest) : NoDigit rest := fun b hb => (h b hb).1

theorem scanWhole?_digitBytes (hd : ∀ d ∈ ds, d < 10) (hf : NoLeadingZero ds) (hr : NoDigit rest) :
    scanWhole? (digitBytes ds ++ rest) = some (ds, rest) := by
  rcases hf with rfl | ⟨d, tail, rfl, h0⟩
  · rfl
  · have hs := scanDigits1?_digitBytes hd (by simp) hr
    have hb : UInt8.ofNat (digitChar d).toNat ≠ 0x30 := by
      intro h
      have hx := digit?_digitChar (hd d (by simp))
      rw [h] at hx
      exact h0 (Option.some.inj hx).symm
    rw [digitBytes_cons, List.cons_append] at hs ⊢
    rw [scanWhole?, hs]
    exact fun _ h => hb (List.head_eq_of_cons_eq h)

theorem scanFraction?_fractionBytes {f : Option (List Nat)}
    (hf : ∀ ds, f = some ds → ds ≠ [] ∧ ∀ d ∈ ds, d < 10) (hr : NoDigit rest)
    (hp : ∀ b ∈ rest.head?, b ≠ 0x2e) :
    scanFraction? (fractionBytes f ++ rest) = some (f, rest) := by
  cases f with
  | none =>
    rw [fractionBytes, List.nil_append, scanFraction?]
    rintro more rfl
    exact hp 0x2e rfl rfl
  | some ds =>
    obtain ⟨hn, hd⟩ := hf ds rfl
    change Option.map _ (scanDigits1? (digitBytes ds ++ rest)) = _
    rw [scanDigits1?_digitBytes hd hn hr]
    rfl

theorem scanExponent?_exponentBytes (e : Option Int) (hr : Ends rest) :
    scanExponent? (exponentBytes e ++ rest) = some (e, rest) := by
  cases e with
  | none =>
    cases rest with
    | nil => rfl
    | cons b rest =>
      obtain ⟨-, -, h1, h2⟩ := hr b (by simp)
      rw [exponentBytes, List.nil_append, scanExponent?, if_neg (by simp [h1, h2])]
  | some n =>
    have hs := spells_natDigits n.natAbs
    have hn : natDigits n.natAbs ≠ [] := by
      rcases hs.first with h | ⟨d, tail, h, -⟩ <;> simp [h]
    have hx := scanDigits1?_digitBytes hs.lt hn hr.noDigit
    rw [exponentBytes, List.cons_append, List.cons_append, scanExponent?, if_pos (.inl rfl)]
    by_cases h0 : n < 0
    · have hv : -((n.natAbs : Nat) : Int) = n := by omega
      rw [if_pos h0]
      simp [scanSign, hx, hs.value, hv, -Nat.cast_natAbs]
    · have hv : ((n.natAbs : Nat) : Int) = n := by omega
      rw [if_neg h0]
      simp [scanSign, hx, hs.value, hv, -Nat.cast_natAbs]

theorem head?_exponentBytes (e : Option Int) (hr : Ends rest) :
    ∀ b ∈ (exponentBytes e ++ rest).head?, digit? b = none ∧ b ≠ 0x2e := by
  cases e with
  | none => exact fun b hb => ⟨(hr b hb).1, (hr b hb).2.1⟩
  | some n =>
    intro b hb
    obtain rfl : 0x65 = b := Option.some.inj hb
    exact ⟨rfl, by decide⟩

/-- **A numeral is scanned as far as it goes.** -/
theorem scanNumeral?_spell {x : Numeral} (hx : x.Plain) (hr : Ends rest) :
    scanNumeral? x.negative (x.spell ++ rest) = some (x, rest) := by
  have he := head?_exponentBytes x.exponent hr
  have hn : NoDigit (exponentBytes x.exponent ++ rest) := fun b hb => (he b hb).1
  have hf : NoDigit (fractionBytes x.fraction ++ (exponentBytes x.exponent ++ rest)) := by
    cases x.fraction with
    | none => exact hn
    | some ds =>
      intro b hb
      obtain rfl : 0x2e = b := Option.some.inj hb
      rfl
  rw [Numeral.spell, List.append_assoc, List.append_assoc, scanNumeral?,
    scanWhole?_digitBytes hx.whole_lt hx.whole_first hf]
  dsimp only
  rw [scanFraction?_fractionBytes hx.fraction hn fun b hb => (he b hb).2]
  dsimp only
  rw [scanExponent?_exponentBytes x.exponent hr]
  rfl

/-- The bytes of a numeral with its sign. -/
def Numeral.bytes (x : Numeral) : List UInt8 := (if x.negative then [0x2d] else []) ++ x.spell

theorem token?_digit (hd : d < 10) (rest : List UInt8) :
    token? (UInt8.ofNat (digitChar d).toNat) rest =
      (scanNumeral? false (UInt8.ofNat (digitChar d).toNat :: rest)).map
        fun (x, rest) => (.scalar x.toNode, rest) := by
  interval_cases d <;> rfl

theorem isBlank_digit (hd : d < 10) : isBlank (UInt8.ofNat (digitChar d).toNat) = false := by
  interval_cases d <;> rfl

/-- **A numeral is one token.** -/
theorem token?_numeral {x : Numeral} (hx : x.Plain) :
    ∃ b part, x.bytes = b :: part ∧ isBlank b = false ∧
      ∀ rest, Ends rest → token? b (part ++ rest) = some (.scalar x.toNode, rest) := by
  cases hn : x.negative with
  | true =>
    refine ⟨0x2d, x.spell, by simp [Numeral.bytes, hn], rfl, fun rest hr => ?_⟩
    have hs := scanNumeral?_spell hx hr
    rw [hn] at hs
    change Option.map _ (scanNumeral? true (x.spell ++ rest)) = _
    rw [hs]
    rfl
  | false =>
    obtain ⟨d, tail, hw⟩ : ∃ d tail, x.whole = d :: tail := by
      rcases hx.whole_first with h | ⟨d, tail, h, -⟩
      · exact ⟨0, [], h⟩
      · exact ⟨d, tail, h⟩
    have hd : d < 10 := hx.whole_lt d (by simp [hw])
    have hb : x.spell = UInt8.ofNat (digitChar d).toNat ::
        (digitBytes tail ++ (fractionBytes x.fraction ++ exponentBytes x.exponent)) := by
      rw [Numeral.spell, hw, digitBytes_cons, List.cons_append]
    refine ⟨_, _, by simpa [Numeral.bytes, hn] using hb, isBlank_digit hd, fun rest hr => ?_⟩
    have hs := scanNumeral?_spell hx hr
    rw [hn, hb, List.cons_append] at hs
    rw [token?_digit hd, hs]
    rfl

/-! ### Integers -/

/-- The numeral of an integer. -/
def intNumeral (n : Int) : Numeral := ⟨n < 0, natDigits n.natAbs, none, none⟩

theorem plain_intNumeral (n : Int) : (intNumeral n).Plain :=
  ⟨(spells_natDigits _).lt, (spells_natDigits _).first, nofun⟩

theorem printInt_eq (n : Int) : printInt n = (intNumeral n).bytes := by
  have hc := (spells_natDigits n.natAbs).chars
  unfold printInt Numeral.bytes Numeral.spell intNumeral
  rw [hc]
  by_cases hn : n < 0
  · simp [hn, ascii, digitBytes, fractionBytes, exponentBytes]
  · simp [hn, ascii, digitBytes, fractionBytes, exponentBytes]

theorem toNode_intNumeral {n : Int} (hl : -0x8000000000000000 ≤ n) (hu : n < 0x10000000000000000) :
    (intNumeral n).toNode = .ofInt n := by
  have hv := (spells_natDigits n.natAbs).value
  have hi : (intNumeral n).int? = some n := by
    unfold intNumeral Numeral.int?
    dsimp only
    rw [hv]
    by_cases hn : n < 0
    · have hx : -((n.natAbs : Nat) : Int) = n := by omega
      have hb : 0 < n.natAbs ∧ n.natAbs ≤ 0x8000000000000000 := by omega
      simp [hn, hb, hx, -Nat.cast_natAbs]
    · have hx : ((n.natAbs : Nat) : Int) = n := by omega
      have hb : n.natAbs < 0x10000000000000000 := by omega
      simp [hn, hb, hx, -Nat.cast_natAbs]
  rw [Numeral.toNode, hi]

end DocWire.Json
