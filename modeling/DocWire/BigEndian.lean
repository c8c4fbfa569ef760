/-!
# Big-endian numbers

A number of fixed width travels most significant byte first. `bytes w n` writes the low `w` bytes of
`n`, `value` reads a byte string as a number. A number that fits its width is read back
(`value_bytes`), and every byte string spells a number that fits its length (`value_lt`).
-/

namespace DocWire.BigEndian

/-- The number that a byte string spells, most significant byte first. -/
def value (bs : List UInt8) : Nat :=
  bs.foldl (fun n b => n * 256 + b.toNat) 0

/-- The low `width` bytes of a number, most significant byte first. -/
def bytes : Nat → Nat → List UInt8
  | 0, _ => []
  | width + 1, n => bytes width (n / 256) ++ [UInt8.ofNat n]

/-- The number of values that `width` bytes can spell. -/
def capacity (width : Nat) : Nat := Nat.pow 256 width

@[simp] theorem capacity_zero : capacity 0 = 1 := rfl

/-- One more byte makes room for 256 times as many values. -/
theorem capacity_succ (width : Nat) : capacity (width + 1) = capacity width * 256 := rfl

@[simp] theorem length_bytes (width n : Nat) : (bytes width n).length = width := by
  induction width generalizing n with
  | zero => rfl
  | succ w ih => simp [bytes, ih]

@[simp] theorem value_nil : value [] = 0 := rfl

/-- The last byte counts once, all before it count 256-fold. -/
@[simp] theorem value_concat (bs : List UInt8) (b : UInt8) :
    value (bs ++ [b]) = value bs * 256 + b.toNat := by
  simp [value]

/-- **A number that fits its width is read back.** -/
theorem value_bytes {width n : Nat} (h : n < capacity width) : value (bytes width n) = n := by
  induction width generalizing n with
  | zero => simp at h; simp [bytes, h]
  | succ w ih =>
    have hd : n / 256 < capacity w := by
      rw [Nat.div_lt_iff_lt_mul (by decide)]; rw [capacity_succ] at h; exact h
    rw [bytes, value_concat, ih hd, UInt8.toNat_ofNat']
    show n / 256 * 256 + n % 256 = n
    omega

theorem value_cons (b : UInt8) (bs : List UInt8) :
    value (b :: bs) = b.toNat * capacity bs.length + value bs := by
  have h : ∀ (bs : List UInt8) (n : Nat), bs.foldl (fun n b => n * 256 + b.toNat) n =
      n * capacity bs.length + value bs := by
    intro bs
    induction bs with
    | nil => simp
    | cons c cs ih =>
      intro n
      have hv : value (c :: cs) = c.toNat * capacity cs.length + value cs := by
        show List.foldl _ _ (c :: cs) = _
        rw [List.foldl_cons, ih, Nat.zero_mul, Nat.zero_add]
      rw [List.foldl_cons, ih, hv, List.length_cons, capacity_succ, Nat.add_mul, Nat.mul_assoc,
        Nat.mul_comm 256, Nat.add_assoc]
  rw [value, List.foldl_cons, h]
  simp

theorem value_lt (bs : List UInt8) : value bs < capacity bs.length := by
  induction bs with
  | nil => simp
  | cons b bs ih =>
    have hb : b.toNat + 1 ≤ 256 := b.toNat_lt
    have hm := Nat.mul_le_mul_right (capacity bs.length) hb
    rw [Nat.add_mul, Nat.one_mul] at hm
    rw [value_cons, List.length_cons, capacity_succ]
    omega

end DocWire.BigEndian
