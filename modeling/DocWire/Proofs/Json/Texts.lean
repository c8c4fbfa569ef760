import Mathlib.Data.List.Basic
import DocWire.Json.Printer
import DocWire.Json.Token

/-! # Texts in JSON are read back

A byte of a text is written as itself, as a short escape, or as the escape of its number. Whichever
it is, scanning takes exactly the bytes that were written and finds one piece (`scanText_printByte`),
and the pieces of a text stand for its bytes (`joinPieces_pieces`). Escapes go byte by byte, and all
bytes of a character beyond ASCII are written as they are, so no escape ever cuts a character. -/

namespace DocWire.Json

/-- The piece that a byte of a text is read as. -/
def pieceOf (b : UInt8) : Piece :=
  if (shortLetter? b).isNone ∧ b < 0x20 then .unit b.toNat else .byte b

theorem forall_control {p : UInt8 → Prop} (h : ∀ n < 32, p (UInt8.ofNat n)) {b : UInt8}
    (hb : b < 0x20) : p b := by
  have hn : b.toNat < 32 := UInt8.lt_iff_toNat_lt.1 hb
  have := h b.toNat hn
  rwa [UInt8.ofNat_toNat] at this

theorem hexUnit?_hexByte {b : UInt8} (hb : b < 0x20) :
    ∃ x y, ascii (hexByte b) = [x, y] ∧ hexUnit? 0x30 0x30 x y = some b.toNat := by
  have h : ∀ n < 32, hexUnit? 0x30 0x30
      (UInt8.ofNat (Nat.digitChar ((UInt8.ofNat n).toNat / 16)).toNat)
      (UInt8.ofNat (Nat.digitChar ((UInt8.ofNat n).toNat % 16)).toNat) =
        some (UInt8.ofNat n).toNat := by decide
  exact ⟨_, _, rfl, forall_control (p := fun b => hexUnit? 0x30 0x30
    (UInt8.ofNat (Nat.digitChar (b.toNat / 16)).toNat)
    (UInt8.ofNat (Nat.digitChar (b.toNat % 16)).toNat) = some b.toNat) h hb⟩

theorem utf8EncodeChar_control {b : UInt8} (hb : b < 0x20) :
    String.utf8EncodeChar (Char.ofNat b.toNat) = [b] := by
  have h : ∀ n < 32, String.utf8EncodeChar (Char.ofNat (UInt8.ofNat n).toNat) =
      [UInt8.ofNat n] := by decide
  exact forall_control (p := fun b => String.utf8EncodeChar (Char.ofNat b.toNat) = [b]) h hb

/-- **A byte of a text is scanned as one piece.** -/
theorem scanText_printByte (b : UInt8) (found : List Piece) (rest : List UInt8) :
    scanText found (printByte b ++ rest) = scanText (pieceOf b :: found) rest := by
  unfold printByte pieceOf
  cases hc : shortLetter? b with
  | some c =>
    unfold shortLetter? at hc
    split_ifs at hc
    all_goals
      subst b
      cases hc
      rfl
  | none =>
    dsimp only
    by_cases hb : b < 0x20
    · obtain ⟨x, y, hx, hu⟩ := hexUnit?_hexByte hb
      have ha : ascii (['\\', 'u', '0', '0'] ++ hexByte b) = [0x5c, 0x75, 0x30, 0x30, x, y] := by
        rw [ascii, List.map_append]
        exact congrArg _ hx
      rw [if_pos hb, ha, if_pos ⟨rfl, hb⟩]
      simp only [List.cons_append, List.nil_append]
      rw [scanText, hu]
    · have h1 : b ≠ 0x22 := by rintro rfl; cases hc
      have h2 : b ≠ 0x5c := by rintro rfl; cases hc
      rw [if_neg hb, if_neg fun h => hb h.2, List.singleton_append, scanText]
      · rw [if_neg (by simp [hb, h2])]
      · exact h1
      · exact fun _ _ _ _ _ h => absurd h h2
      · exact fun _ _ h => absurd h h2

theorem scanText_printBytes (bs : List UInt8) (found : List Piece) (rest : List UInt8) :
    scanText found (bs.flatMap printByte ++ 0x22 :: rest) =
      some (found.reverse ++ bs.map pieceOf, rest) := by
  induction bs generalizing found with
  | nil => simp [scanText]
  | cons b bs ih =>
    rw [List.flatMap_cons, List.append_assoc, scanText_printByte, ih]
    simp

/-- **The pieces of a text stand for its bytes.** -/
theorem joinPieces_pieces (bs found : List UInt8) :
    joinPieces found (bs.map pieceOf) = some (found.reverse ++ bs) := by
  induction bs generalizing found with
  | nil => simp [joinPieces]
  | cons b bs ih =>
    rw [List.map_cons]
    by_cases hb : (shortLetter? b).isNone ∧ b < 0x20
    · have hn : b.toNat < 32 := UInt8.lt_iff_toNat_lt.1 hb.2
      have hh : isHighSurrogate b.toNat = false := by
        simp only [isHighSurrogate, Bool.and_eq_false_iff, decide_eq_false_iff_not]
        omega
      have hl : isLowSurrogate b.toNat = false := by
        simp only [isLowSurrogate, Bool.and_eq_false_iff, decide_eq_false_iff_not]
        omega
      rw [pieceOf, if_pos hb, joinPieces.eq_def]
      simp [hh, hl, utf8EncodeChar_control hb.2, ih]
    · rw [pieceOf, if_neg hb, joinPieces, ih]
      simp

/-- **A text that is written is read back.** -/
theorem token?_printText (s : String) (rest : List UInt8) :
    ∃ part, printText s = 0x22 :: part ∧
      token? 0x22 (part ++ rest) = some (.text (.text s), rest) := by
  refine ⟨(Text.toBytes s).flatMap printByte ++ [0x22], rfl, ?_⟩
  have hs := scanText_printBytes (Text.toBytes s) [] rest
  have ht : textNode ((Text.toBytes s).map pieceOf) = .text s := by
    rw [textNode, joinPieces_pieces]
    simp
  change Option.map _ (scanText [] ((Text.toBytes s).flatMap printByte ++ [0x22] ++ rest)) = _
  rw [List.append_assoc, List.singleton_append, hs]
  simp [ht]

end DocWire.Json
