import DocWire.BigEndian
import DocWire.Node

/-!
# Reading MessagePack

A value is a marker byte, then what the marker announces. Arrays, maps and pieces with a type of
their own are levels of nesting, of which there may be `maxNesting`. What comes behind the value is
left alone.
-/

namespace DocWire.MessagePack

/-- The most levels of nesting. -/
def maxNesting : Nat := 1023

/-- Reads one thing off the front of a byte string. -/
abbrev Reader (α : Type) : Type := List UInt8 → Option (α × List UInt8)

/-- The first `n` bytes. -/
def takeBytes? (n : Nat) : Reader (List UInt8) := fun bs =>
  let taken := bs.take n
  if taken.length = n then some (taken, bs.drop n) else none

/-- A number of `width` bytes. -/
def takeNumber? (width : Nat) : Reader Nat := fun bs =>
  (takeBytes? width bs).map fun (number, rest) => (BigEndian.value number, rest)

/-- A signed number of `width` bytes, in two's complement. -/
def takeSigned? (width : Nat) : Reader Int := fun bs =>
  (takeNumber? width bs).map fun (n, rest) =>
    let count := BigEndian.capacity width
    (if 2 * n < count then (n : Int) else (n : Int) - count, rest)

/-- Things one after the other, behind those already read, which are in reverse order. -/
def takeMany? {α : Type} (one : Reader α) (found : List α) : Nat → Reader (List α)
  | 0, bs => some (found.reverse, bs)
  | n + 1, bs =>
    match one bs with
    | some (a, rest) => takeMany? one (a :: found) n rest
    | none => none

/-- A text of `n` bytes; bytes that are not UTF-8 are a byte string. -/
def textNode (n : Nat) : Reader Node := fun bs =>
  (takeBytes? n bs).map fun (taken, rest) =>
    (match Text.ofBytes? taken with
      | some s => .text s
      | none => .bytes taken, rest)

/-- A byte string of `n` bytes. -/
def bytesNode (n : Nat) : Reader Node := fun bs =>
  (takeBytes? n bs).map fun (taken, rest) => (.bytes taken, rest)

/-- A piece with a type byte and `n` bytes of its own, where a level may begin at all. -/
def taggedNode (item : Option (Reader Node)) (n : Nat) : Reader Node := fun bs =>
  item.bind fun _ => (takeBytes? (n + 1) bs).map fun (_, rest) => (.tagged, rest)

/-- An array of `n` items, where a level may begin at all. -/
def seqNode (item : Option (Reader Node)) (n : Nat) : Reader Node := fun bs =>
  item.bind fun item =>
    (takeMany? item [] n bs).map fun (items, rest) => (.seq items, rest)

/-- A key with its value. -/
def entry (item : Reader Node) : Reader (Node × Node) := fun bs =>
  match item bs with
  | none => none
  | some (key, rest) => (item rest).map fun (v, rest) => ((key, v), rest)

/-- A map of `n` entries, where a level may begin at all. -/
def mapNode (item : Option (Reader Node)) (n : Nat) : Reader Node := fun bs =>
  item.bind fun item =>
    (takeMany? (entry item) [] n bs).map fun (entries, rest) => (.map entries, rest)

/-- Reads a number of `width` bytes, then something of that size. -/
def sized (width : Nat) (body : Nat → Reader Node) : Reader Node := fun bs =>
  match takeNumber? width bs with
  | some (n, rest) => body n rest
  | none => none

/-- An unsigned number of `width` bytes. -/
def unsignedNode (width : Nat) (w : IntWidth) : Reader Node := fun bs =>
  (takeNumber? width bs).map fun (n, rest) => (.int w n, rest)

/-- A signed number of `width` bytes. -/
def signedNode (width : Nat) : Reader Node := fun bs =>
  (takeSigned? width bs).map fun (n, rest) => (.int .signed n, rest)

/-- What a marker announces; `item` reads the parts one level further in, if there may be such a
level. -/
def body (item : Option (Reader Node)) (marker : UInt8) : Reader Node := fun bs =>
  let m := marker.toNat
  if m < 0x80 then some (.int .octet m, bs)
  else if m < 0x90 then mapNode item (m - 0x80) bs
  else if m < 0xa0 then seqNode item (m - 0x90) bs
  else if m < 0xc0 then textNode (m - 0xa0) bs
  else if 0xe0 ≤ m then some (.int .signed ((m : Int) - 0x100), bs)
  else
    match m with
    | 0xc0 => some (.null, bs)
    | 0xc2 => some (.bool false, bs)
    | 0xc3 => some (.bool true, bs)
    | 0xc4 => sized 1 bytesNode bs
    | 0xc5 => sized 2 bytesNode bs
    | 0xc6 => sized 4 bytesNode bs
    | 0xc7 => sized 1 (taggedNode item) bs
    | 0xc8 => sized 2 (taggedNode item) bs
    | 0xc9 => sized 4 (taggedNode item) bs
    | 0xca => (takeNumber? 4 bs).map fun (n, rest) => (.double (Binary64.ofSingle n), rest)
    | 0xcb => (takeNumber? 8 bs).map fun (n, rest) => (.double (Binary64.ofBits n), rest)
    | 0xcc => unsignedNode 1 .octet bs
    | 0xcd => unsignedNode 2 .short bs
    | 0xce => unsignedNode 4 .word bs
    | 0xcf => unsignedNode 8 .long bs
    | 0xd0 => signedNode 1 bs
    | 0xd1 => signedNode 2 bs
    | 0xd2 => signedNode 4 bs
    | 0xd3 => signedNode 8 bs
    | 0xd4 => taggedNode item 1 bs
    | 0xd5 => taggedNode item 2 bs
    | 0xd6 => taggedNode item 4 bs
    | 0xd7 => taggedNode item 8 bs
    | 0xd8 => taggedNode item 16 bs
    | 0xd9 => sized 1 textNode bs
    | 0xda => sized 2 textNode bs
    | 0xdb => sized 4 textNode bs
    | 0xdc => sized 2 (seqNode item) bs
    | 0xdd => sized 4 (seqNode item) bs
    | 0xde => sized 2 (mapNode item) bs
    | 0xdf => sized 4 (mapNode item) bs
    | _ => none

/-- A marker with what it announces. -/
def marked (item : Option (Reader Node)) : Reader Node
  | [] => none
  | marker :: rest => body item marker rest

/-- A value with at most so many levels of nesting. -/
def nested : Nat → Reader Node
  | 0 => marked none
  | depth + 1 => marked (some (nested depth))

/-- The tree at the start of a byte string, and the bytes behind it. -/
def read? (bs : List UInt8) : Option (Node × List UInt8) := nested maxNesting bs

/-- The tree at the start of a byte string. -/
def parse? (bs : List UInt8) : Option Node := (read? bs).map (·.1)

end DocWire.MessagePack
