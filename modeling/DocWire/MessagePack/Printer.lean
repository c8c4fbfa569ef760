import DocWire.BigEndian
import DocWire.Value

/-!
# Writing MessagePack

Integers, texts, arrays and maps are written in their smallest form, doubles always in eight bytes.
The fields of a map come in the order of the object.
-/

namespace DocWire.MessagePack

/-- A marker and a number of `width` bytes. -/
def numbered (marker : UInt8) (width n : Nat) : List UInt8 := marker :: BigEndian.bytes width n

/-- An integer in its smallest form. -/
def printInt (n : Int) : List UInt8 :=
  if 0 ≤ n then
    let m := n.toNat
    if m < 0x80 then [UInt8.ofNat m]
    else if m < 0x100 then numbered 0xcc 1 m
    else if m < 0x10000 then numbered 0xcd 2 m
    else if m < 0x100000000 then numbered 0xce 4 m
    else numbered 0xcf 8 m
  else if -0x20 ≤ n then [UInt8.ofNat (n + 0x100).toNat]
  else if -0x80 ≤ n then numbered 0xd0 1 (n + 0x100).toNat
  else if -0x8000 ≤ n then numbered 0xd1 2 (n + 0x10000).toNat
  else if -0x80000000 ≤ n then numbered 0xd2 4 (n + 0x100000000).toNat
  else numbered 0xd3 8 (n + 0x10000000000000000).toNat

/-- The start of a text of `n` bytes. -/
def textStart (n : Nat) : List UInt8 :=
  if n < 0x20 then [UInt8.ofNat (0xa0 + n)]
  else if n < 0x100 then numbered 0xd9 1 n
  else if n < 0x10000 then numbered 0xda 2 n
  else numbered 0xdb 4 n

/-- The start of an array of `n` items. -/
def seqStart (n : Nat) : List UInt8 :=
  if n < 0x10 then [UInt8.ofNat (0x90 + n)]
  else if n < 0x10000 then numbered 0xdc 2 n
  else numbered 0xdd 4 n

/-- The start of a map of `n` entries. -/
def mapStart (n : Nat) : List UInt8 :=
  if n < 0x10 then [UInt8.ofNat (0x80 + n)]
  else if n < 0x10000 then numbered 0xde 2 n
  else numbered 0xdf 4 n

/-- A text. -/
def printText (s : String) : List UInt8 :=
  let bs := Text.toBytes s
  textStart bs.length ++ bs

mutual

/-- A value. -/
def print : Value → List UInt8
  | .null => [0xc0]
  | .bool false => [0xc2]
  | .bool true => [0xc3]
  | .int n => printInt n
  | .double x => numbered 0xcb 8 x.bits.toNat
  | .text s => printText s
  | .array items => seqStart items.length ++ printItems items
  | .object fields => mapStart fields.length ++ printFields fields

/-- Items one after the other. -/
def printItems : List Value → List UInt8
  | [] => []
  | v :: vs => print v ++ printItems vs

/-- Keys and values one after the other. -/
def printFields : List (String × Value) → List UInt8
  | [] => []
  | (key, v) :: fields => printText key ++ print v ++ printFields fields

end

end DocWire.MessagePack
