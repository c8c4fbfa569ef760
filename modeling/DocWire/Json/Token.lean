import DocWire.Json.Number

/-!
# Tokens of JSON

A JSON text is cut into tokens: brackets, commas, colons, texts, and the other scalars, with blanks
between them. `tokens?` gives all tokens of a text, or nothing if a piece of it is no token.

The spelling of a text is checked here, its meaning only as far as that is possible: a text that is
not UTF-8, or has half of a surrogate pair, is a token, but an unreadable one.
-/

namespace DocWire.Json

/-- A token; texts stand apart from the other scalars because keys are texts. -/
inductive Token where
  | openArray
  | closeArray
  | openObject
  | closeObject
  | comma
  | colon
  | text (n : Node)
  | scalar (n : Node)
  deriving Repr, Inhabited

/-- A piece of a text between its quotes: a byte as it is, or a unit of UTF-16 by its number. -/
inductive Piece where
  | byte (b : UInt8)
  | unit (u : Nat)
  deriving DecidableEq, Repr, Inhabited

/-- The character behind a backslash, for the escapes of one character. -/
def shortEscape? (e : UInt8) : Option UInt8 :=
  if e = 0x22 then some 0x22        -- quote
  else if e = 0x5c then some 0x5c   -- backslash
  else if e = 0x2f then some 0x2f   -- slash
  else if e = 0x62 then some 0x08   -- b, backspace
  else if e = 0x66 then some 0x0c   -- f, form feed
  else if e = 0x6e then some 0x0a   -- n, line feed
  else if e = 0x72 then some 0x0d   -- r, carriage return
  else if e = 0x74 then some 0x09   -- t, tab
  else none

/-- The value of a hexadecimal digit. -/
def hexDigit? (b : UInt8) : Option Nat :=
  if 0x30 ≤ b ∧ b ≤ 0x39 then some (b.toNat - 0x30)
  else if 0x61 ≤ b ∧ b ≤ 0x66 then some (b.toNat - 0x61 + 10)
  else if 0x41 ≤ b ∧ b ≤ 0x46 then some (b.toNat - 0x41 + 10)
  else none

/-- The number of four hexadecimal digits. -/
def hexUnit? (a b c d : UInt8) : Option Nat :=
  match hexDigit? a, hexDigit? b, hexDigit? c, hexDigit? d with
  | some a, some b, some c, some d => some (((a * 16 + b) * 16 + c) * 16 + d)
  | _, _, _, _ => none

/-- The pieces of a text up to its closing quote, behind those already found, which are in reverse
order. -/
def scanText (found : List Piece) : List UInt8 → Option (List Piece × List UInt8)
  | [] => none
  | 0x22 :: rest => some (found.reverse, rest)
  | 0x5c :: 0x75 :: a :: b :: c :: d :: rest =>
    match hexUnit? a b c d with
    | some u => scanText (.unit u :: found) rest
    | none => none
  | 0x5c :: e :: rest =>
    match shortEscape? e with
    | some b => scanText (.byte b :: found) rest
    | none => none
  | b :: rest => if b < 0x20 ∨ b = 0x5c then none else scanText (.byte b :: found) rest

/-- Whether a unit is the first half of a surrogate pair. -/
def isHighSurrogate (u : Nat) : Bool := 0xd800 ≤ u && u < 0xdc00

/-- Whether a unit is the second half of a surrogate pair. -/
def isLowSurrogate (u : Nat) : Bool := 0xdc00 ≤ u && u < 0xe000

/-- The scalar value of a surrogate pair. -/
def pairValue (high low : Nat) : Nat := 0x10000 + (high - 0xd800) * 0x400 + (low - 0xdc00)

/-- The bytes that pieces stand for, in reverse order behind those already found; half of a
surrogate pair stands for nothing. -/
def joinPieces (found : List UInt8) : List Piece → Option (List UInt8)
  | [] => some found.reverse
  | .byte b :: rest => joinPieces (b :: found) rest
  | .unit u :: rest =>
    if isHighSurrogate u then
      match rest with
      | .unit low :: rest =>
        if isLowSurrogate low then
          joinPieces ((String.utf8EncodeChar (Char.ofNat (pairValue u low))).reverse ++ found) rest
        else none
      | _ => none
    else if isLowSurrogate u then none
    else joinPieces ((String.utf8EncodeChar (Char.ofNat u)).reverse ++ found) rest

/-- The text that pieces stand for. -/
def textNode (pieces : List Piece) : Node :=
  match (joinPieces [] pieces).bind Text.ofBytes? with
  | some s => .text s
  | none => .unreadable

/-- The value of a decimal digit. -/
def digit? (b : UInt8) : Option Nat :=
  if 0x30 ≤ b ∧ b ≤ 0x39 then some (b.toNat - 0x30) else none

/-- The digits at the start of a byte string, behind those already found, which are in reverse
order. -/
def scanDigits (found : List Nat) : List UInt8 → List Nat × List UInt8
  | [] => (found.reverse, [])
  | b :: rest =>
    match digit? b with
    | some d => scanDigits (d :: found) rest
    | none => (found.reverse, b :: rest)

/-- The digits at the start of a byte string, of which there is at least one. -/
def scanDigits1? (bs : List UInt8) : Option (List Nat × List UInt8) :=
  match scanDigits [] bs with
  | ([], _) => none
  | found => some found

/-- The whole part of a numeral: a zero, or digits that start with another one. -/
def scanWhole? : List UInt8 → Option (List Nat × List UInt8)
  | 0x30 :: rest => some ([0], rest)
  | bs => scanDigits1? bs

/-- The fraction of a numeral, if it has one. -/
def scanFraction? : List UInt8 → Option (Option (List Nat) × List UInt8)
  | 0x2e :: rest => (scanDigits1? rest).map fun (ds, rest) => (some ds, rest)
  | bs => some (none, bs)

/-- The sign at the start of an exponent; true for minus. -/
def scanSign : List UInt8 → Bool × List UInt8
  | 0x2d :: rest => (true, rest)
  | 0x2b :: rest => (false, rest)
  | bs => (false, bs)

/-- The exponent of a numeral, if it has one. -/
def scanExponent? : List UInt8 → Option (Option Int × List UInt8)
  | [] => some (none, [])
  | b :: rest =>
    if b = 0x65 ∨ b = 0x45 then
      let (negative, rest) := scanSign rest
      (scanDigits1? rest).map fun (ds, rest) =>
        let n : Int := Numeral.digitsValue ds
        (some (if negative then -n else n), rest)
    else some (none, b :: rest)

/-- The numeral at the start of a byte string, behind its sign. -/
def scanNumeral? (negative : Bool) (bs : List UInt8) : Option (Numeral × List UInt8) :=
  match scanWhole? bs with
  | none => none
  | some (whole, bs) =>
    match scanFraction? bs with
    | none => none
    | some (fraction, bs) =>
      (scanExponent? bs).map fun (exponent, bs) => (⟨negative, whole, fraction, exponent⟩, bs)

/-- Whether a byte is a blank. -/
def isBlank (b : UInt8) : Bool := b = 0x20 || b = 0x09 || b = 0x0a || b = 0x0d

/-- The token that starts with a byte, and the bytes behind the token. -/
def token? (b : UInt8) (rest : List UInt8) : Option (Token × List UInt8) :=
  if b = 0x5b then some (.openArray, rest)
  else if b = 0x5d then some (.closeArray, rest)
  else if b = 0x7b then some (.openObject, rest)
  else if b = 0x7d then some (.closeObject, rest)
  else if b = 0x2c then some (.comma, rest)
  else if b = 0x3a then some (.colon, rest)
  else if b = 0x22 then (scanText [] rest).map fun (ps, rest) => (.text (textNode ps), rest)
  else if b = 0x2d then (scanNumeral? true rest).map fun (x, rest) => (.scalar x.toNode, rest)
  else if (digit? b).isSome then
    (scanNumeral? false (b :: rest)).map fun (x, rest) => (.scalar x.toNode, rest)
  else
    match b, rest with
    | 0x6e, 0x75 :: 0x6c :: 0x6c :: rest => some (.scalar .null, rest)
    | 0x74, 0x72 :: 0x75 :: 0x65 :: rest => some (.scalar (.bool true), rest)
    | 0x66, 0x61 :: 0x6c :: 0x73 :: 0x65 :: rest => some (.scalar (.bool false), rest)
    | _, _ => none

/-- The tokens of a byte string, behind those already found, which are in reverse order. Every token
takes a byte at least, so as many steps as there are bytes are enough. -/
def tokensFor (found : List Token) : (fuel : Nat) → List UInt8 → Option (List Token)
  | _, [] => some found.reverse
  | 0, _ => none
  | fuel + 1, b :: rest =>
    if isBlank b then tokensFor found fuel rest
    else
      match token? b rest with
      | some (t, rest) => tokensFor (t :: found) fuel rest
      | none => none

/-- All tokens of a byte string. -/
def tokens? (bs : List UInt8) : Option (List Token) := tokensFor [] bs.length bs

end DocWire.Json
