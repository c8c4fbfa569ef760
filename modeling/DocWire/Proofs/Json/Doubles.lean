import Mathlib.Data.List.DropRight
import DocWire.Proofs.Json.Numerals

/-! # Doubles in JSON are numerals

The text of a double is the spelling of a numeral (`ascii_doubleText`), whichever of the three
notations it takes. The shortest digits of a double start with a digit other than zero: no interval
of reals that round to a positive double reaches down to zero (`gridPoint?_pos`). -/

namespace DocWire.Json

open DocWire.Decimal (natDigits)

/-! ### The shortest digits of a double -/

/-- Digits of which the first is no zero. -/
structure Leads (ds : List Nat) : Prop where
  lt : ∀ d ∈ ds, d < 10
  first : ∃ d tail, ds = d :: tail ∧ d ≠ 0

theorem leads_dropTrailingZeros {ds : List Nat} (h : Leads ds) :
    Leads (Decimal.dropTrailingZeros ds) := by
  have he : Decimal.dropTrailingZeros ds = ds.rdropWhile (· == 0) := rfl
  obtain ⟨d, tail, hs, hd⟩ := h.first
  have hp : ds.rdropWhile (· == 0) <+: ds := List.rdropWhile_prefix _ ds
  have hn : ds.rdropWhile (· == 0) ≠ [] := by
    rw [Ne, List.rdropWhile_eq_nil_iff]
    intro hx
    exact hd (by simpa using hx d (by simp [hs]))
  rw [he]
  refine ⟨fun e hm => h.lt e (hp.subset hm), ?_⟩
  obtain ⟨e, tail', ht⟩ := List.exists_cons_of_ne_nil hn
  rw [ht, hs, List.cons_prefix_cons] at hp
  exact ⟨e, tail', ht, hp.1 ▸ hd⟩

theorem leads_natDigits {n : Nat} (hn : 0 < n) : Leads (natDigits n) := by
  have hs := spells_natDigits n
  refine ⟨hs.lt, hs.first.resolve_left fun h => ?_⟩
  have hv := hs.value
  rw [h] at hv
  have : 0 = n := hv
  omega

theorem interval_low_pos {x : Binary64} (hx : x.magnitude ≠ 0) :
    0 < (Decimal.Interval.of x).low := by
  have hs : 1 ≤ x.significand := by
    unfold Binary64.significand
    split_ifs with he
    · omega
    · have : 0 < Binary64.hiddenBit := by decide
      omega
  have hp : 0 < Nat.pow 2 x.shift := Nat.pow_pos (by decide)
  have hu : Nat.pow 2 x.shift ≤ x.units := Nat.le_mul_of_pos_left _ hs
  unfold Decimal.Interval.of
  dsimp only
  split_ifs
  · omega
  · omega

theorem not_holds_zero {i : Decimal.Interval} (hi : 0 < i.low) {d : Nat} (hd : 0 < d) :
    i.holds 0 d = false := by
  have hl : 0 < i.low * d := Nat.mul_pos hi hd
  unfold Decimal.Interval.holds
  split_ifs
  · simp only [Bool.and_eq_false_iff, decide_eq_false_iff_not]
    omega
  · simp only [Bool.and_eq_false_iff, decide_eq_false_iff_not]
    omega

/-- **No grid point that rounds to a positive double is zero.** -/
theorem gridPoint?_pos {i : Decimal.Interval} (hi : 0 < i.low) {place : Int} {point : Nat}
    (h : i.gridPoint? place = some point) : 0 < point := by
  have hd : 0 < Nat.pow 10 (-place).toNat := Nat.pow_pos (by decide)
  rcases Nat.eq_zero_or_pos point with rfl | hp
  · unfold Decimal.Interval.gridPoint? at h
    dsimp only at h
    split_ifs at h with h1 h2
    · have h0 := Option.some.inj h
      rw [h0, Nat.zero_mul, not_holds_zero hi hd] at h1
      simp at h1
    · exact absurd (Option.some.inj h) (Nat.succ_ne_zero _)
  · exact hp

/-- What the search comes to: digits that lead, or a single zero when it runs out. -/
theorem search_spec {i : Decimal.Interval} (hi : 0 < i.low) (exponent : Int) (count fuel : Nat) :
    Leads (i.search exponent count fuel).digits ∨ i.search exponent count fuel = ⟨[0], 0⟩ := by
  induction fuel generalizing count with
  | zero => exact .inr rfl
  | succ fuel ih =>
    unfold Decimal.Interval.search
    dsimp only
    split
    next point hp => exact .inl (leads_dropTrailingZeros (leads_natDigits (gridPoint?_pos hi hp)))
    next => exact ih (count + 1)

theorem shortest_spec {x : Binary64} (hx : x.magnitude ≠ 0) :
    Leads (Decimal.shortest x).digits ∨ Decimal.shortest x = ⟨[0], 0⟩ :=
  search_spec (interval_low_pos hx) _ _ _

/-! ### The numeral of a double -/

/-- Digits in positional notation. -/
def positionalNumeral (negative : Bool) (s : Decimal.Scientific) : Numeral :=
  if s.exponent < 0 then
    ⟨negative, [0], some (List.replicate ((-s.exponent).toNat - 1) 0 ++ s.digits), none⟩
  else
    let whole := s.exponent.toNat + 1
    let fraction := s.digits.drop whole
    ⟨negative, s.digits.take whole ++ List.replicate (whole - s.digits.length) 0,
      some (if fraction.isEmpty then [0] else fraction), none⟩

/-- Digits with an exponent. -/
def exponentialNumeral (negative : Bool) (s : Decimal.Scientific) : Numeral :=
  let fraction := s.digits.drop 1
  ⟨negative, s.digits.take 1, if fraction.isEmpty then none else some fraction, some s.exponent⟩

/-- The numeral that the text of a double spells. -/
def doubleNumeral (x : Binary64) : Numeral :=
  if x.magnitude = 0 then ⟨x.negative, [0], some [0], none⟩
  else
    let s := Decimal.shortest x
    if positionalExponents.1 ≤ s.exponent ∧ s.exponent ≤ positionalExponents.2 then
      positionalNumeral x.negative s
    else exponentialNumeral x.negative s

theorem ascii_append (a b : List Char) : ascii (a ++ b) = ascii a ++ ascii b := List.map_append

theorem digitBytes_append (a b : List Nat) : digitBytes (a ++ b) = digitBytes a ++ digitBytes b := by
  rw [digitBytes, List.map_append, ascii_append]
  rfl

theorem digitBytes_replicate (n : Nat) :
    digitBytes (List.replicate n 0) = ascii (List.replicate n '0') := by
  rw [digitBytes, List.map_replicate]
  rfl

theorem ascii_positional (negative : Bool) (s : Decimal.Scientific) :
    ascii (positional s.digits s.exponent) = (positionalNumeral negative s).spell := by
  unfold positional positionalNumeral
  split_ifs with h0
  · simp only [Numeral.spell, fractionBytes, exponentBytes, ascii_append, digitBytes_append,
      digitBytes_replicate, List.append_nil]
    rfl
  · dsimp only
    have hf : ascii (if ((s.digits.map digitChar).drop (s.exponent.toNat + 1)).isEmpty then ['0']
        else (s.digits.map digitChar).drop (s.exponent.toNat + 1)) =
        digitBytes (if (s.digits.drop (s.exponent.toNat + 1)).isEmpty then [0]
          else s.digits.drop (s.exponent.toNat + 1)) := by
      rw [← List.map_drop, List.isEmpty_map]
      split_ifs
      · rfl
      · rfl
    simp only [Numeral.spell, fractionBytes, exponentBytes, ascii_append, digitBytes_append,
      digitBytes_replicate, List.append_nil, hf, List.length_map, ← List.map_take]
    simp [digitBytes, ascii]

theorem ascii_exponential (negative : Bool) (s : Decimal.Scientific) :
    ascii (exponential s.digits s.exponent) = (exponentialNumeral negative s).spell := by
  have hr : (toString s.exponent.natAbs).toList = (natDigits s.exponent.natAbs).map digitChar := by
    rw [← (spells_natDigits s.exponent.natAbs).chars]
    exact (congrArg String.toList Nat.repr_eq_ofList_toDigits).trans (String.toList_ofList)
  unfold exponential exponentialNumeral
  dsimp only
  rw [hr, ← List.map_drop, ← List.map_take, List.isEmpty_map]
  split_ifs with hf h0 h0
  · simp [Numeral.spell, fractionBytes, exponentBytes, digitBytes, ascii, h0]
  · simp [Numeral.spell, fractionBytes, exponentBytes, digitBytes, ascii, h0]
  · simp [Numeral.spell, fractionBytes, exponentBytes, digitBytes, ascii, h0]
  · simp [Numeral.spell, fractionBytes, exponentBytes, digitBytes, ascii, h0]

theorem ascii_signed {negative : Bool} {cs : List Char} {y : Numeral} (hy : ascii cs = y.spell)
    (hn : y.negative = negative) :
    ascii (if negative then '-' :: cs else cs) = y.bytes := by
  rw [Numeral.bytes, hn, ← hy]
  cases negative <;> rfl

/-- **The text of a double is the spelling of a numeral.** -/
theorem ascii_doubleText (x : Binary64) : ascii (doubleText x) = (doubleNumeral x).bytes := by
  have hp : ∀ s, (positionalNumeral x.negative s).negative = x.negative := by
    intro s
    unfold positionalNumeral
    split_ifs <;> rfl
  unfold doubleText doubleNumeral
  by_cases h0 : x.magnitude = 0
  · simp only [if_pos h0]
    exact ascii_signed rfl rfl
  · simp only [if_neg h0]
    by_cases hs : positionalExponents.1 ≤ (Decimal.shortest x).exponent ∧
        (Decimal.shortest x).exponent ≤ positionalExponents.2
    · simp only [if_pos hs]
      exact ascii_signed (ascii_positional x.negative _) (hp _)
    · simp only [if_neg hs]
      exact ascii_signed (ascii_exponential x.negative _) rfl

theorem plain_positionalNumeral (negative : Bool) {s : Decimal.Scientific}
    (hs : Leads s.digits ∨ s = ⟨[0], 0⟩) : (positionalNumeral negative s).Plain := by
  rcases hs with hs | rfl
  · obtain ⟨d, tail, hd, h0⟩ := hs.first
    unfold positionalNumeral
    split_ifs with he
    · refine ⟨by simp, .inl rfl, fun ds hf => ?_⟩
      obtain rfl := Option.some.inj hf
      refine ⟨by simp [hd], fun e hm => ?_⟩
      rcases List.mem_append.1 hm with hm | hm
      · rw [List.eq_of_mem_replicate hm]
        decide
      · exact hs.lt e hm
    · refine ⟨fun e hm => ?_, .inr ⟨d, _, by rw [hd]; rfl, h0⟩, fun ds hf => ?_⟩
      · rcases List.mem_append.1 hm with hm | hm
        · exact hs.lt e (List.mem_of_mem_take hm)
        · rw [List.eq_of_mem_replicate hm]
          decide
      · obtain rfl := Option.some.inj hf
        split_ifs with hx
        · simp
        · exact ⟨by simpa using hx, fun e hm => hs.lt e (List.mem_of_mem_drop hm)⟩
  · refine ⟨?_, .inl rfl, fun ds hf => ?_⟩
    · show ∀ d ∈ [0], d < 10
      decide
    · obtain rfl := Option.some.inj hf
      decide

theorem plain_exponentialNumeral (negative : Bool) {s : Decimal.Scientific}
    (hs : Leads s.digits ∨ s = ⟨[0], 0⟩) : (exponentialNumeral negative s).Plain := by
  rcases hs with hs | rfl
  · obtain ⟨d, tail, hd, h0⟩ := hs.first
    refine ⟨fun e hm => hs.lt e (List.mem_of_mem_take hm), .inr ⟨d, [], ?_, h0⟩, fun ds hf => ?_⟩
    · rw [exponentialNumeral, hd]
      rfl
    · unfold exponentialNumeral at hf
      dsimp only at hf
      split_ifs at hf with hx
      obtain rfl := Option.some.inj hf
      exact ⟨by simpa using hx, fun e hm => hs.lt e (List.mem_of_mem_drop hm)⟩
  · refine ⟨?_, .inl rfl, nofun⟩
    show ∀ d ∈ [0], d < 10
    decide

/-- **The numeral of a double has no needless zeros.** -/
theorem plain_doubleNumeral (x : Binary64) : (doubleNumeral x).Plain := by
  unfold doubleNumeral
  dsimp only
  split_ifs with h0 hp
  · refine ⟨by simp, .inl rfl, fun ds hf => ?_⟩
    obtain rfl := Option.some.inj hf
    decide
  · exact plain_positionalNumeral _ (shortest_spec h0)
  · exact plain_exponentialNumeral _ (shortest_spec h0)

end DocWire.Json
