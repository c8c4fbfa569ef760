import DocWire.Hex
import DocWire.Json.Number

/-!
# Writing JSON

Values are written without blanks, fields in the order of the object. In texts the quote, the
backslash and the control characters below `0x20` are escaped, and nothing else is.
-/

namespace DocWire.Json

/-- The bytes of ASCII characters. -/
def ascii (cs : List Char) : List UInt8 := cs.map fun c => UInt8.ofNat c.toNat

/-- The letter behind the backslash for the characters that have a short escape. -/
def shortLetter? (b : UInt8) : Option Char :=
  if b = 0x22 then some '\"'
  else if b = 0x5c then some '\\'
  else if b = 0x08 then some 'b'
  else if b = 0x0c then some 'f'
  else if b = 0x0a then some 'n'
  else if b = 0x0d then some 'r'
  else if b = 0x09 then some 't'
  else none

/-- A byte of a text as it is written. -/
def printByte (b : UInt8) : List UInt8 :=
  match shortLetter? b with
  | some c => ascii ['\\', c]
  | none =>
    if b < 0x20 then ascii (['\\', 'u', '0', '0'] ++ hexByte b) else [b]

/-- A text with its quotes. -/
def printText (s : String) : List UInt8 :=
  [0x22] ++ (Text.toBytes s).flatMap printByte ++ [0x22]

/-- An integer. -/
def printInt (n : Int) : List UInt8 :=
  ascii ((if n < 0 then ['-'] else []) ++ Nat.toDigits 10 n.natAbs)

mutual

/-- A value. -/
def print : Value → List UInt8
  | .null => ascii ['n', 'u', 'l', 'l']
  | .bool true => ascii ['t', 'r', 'u', 'e']
  | .bool false => ascii ['f', 'a', 'l', 's', 'e']
  | .int n => printInt n
  | .double x => ascii (doubleText x)
  | .text s => printText s
  | .array [] => [0x5b, 0x5d]
  | .array (v :: vs) => [0x5b] ++ print v ++ printItems vs ++ [0x5d]
  | .object [] => [0x7b, 0x7d]
  | .object ((key, v) :: fields) =>
    [0x7b] ++ printText key ++ [0x3a] ++ print v ++ printFields fields ++ [0x7d]

/-- Further items, each behind a comma. -/
def printItems : List Value → List UInt8
  | [] => []
  | v :: vs => [0x2c] ++ print v ++ printItems vs

/-- Further fields, each behind a comma. -/
def printFields : List (String × Value) → List UInt8
  | [] => []
  | (key, v) :: fields => [0x2c] ++ printText key ++ [0x3a] ++ print v ++ printFields fields

end

end DocWire.Json
