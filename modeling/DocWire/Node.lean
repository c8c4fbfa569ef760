import DocWire.Value

/-!
# What a payload spells

Both encodings spell the same kind of tree, and everything that a payload may mean is read off this
tree. It keeps what the readers of records can tell apart: the width of an integer, byte strings
beside texts, map keys of every kind, and pieces that are well-formed but have no value in the data
model (`unreadable`, `tagged`).

`Node.holds room` says that a tree can be taken into memory as a whole: nothing in it is unreadable
and its arrays and maps are nested at most `room` deep. `Node.value? room` reads it as free-form
data.
-/

namespace DocWire

/-- The width in which an integer is spelled; those spelled with a sign are not told apart. -/
inductive IntWidth where
  | octet
  | short
  | word
  | long
  | signed
  deriving DecidableEq, Repr, Inhabited

/-- A spelled tree. `tagged` is a piece with a type of its own, outside the data model, and
`unreadable` a well-formed text or number without a value. -/
inductive Node where
  | null
  | bool (b : Bool)
  | int (width : IntWidth) (n : Int)
  | double (x : Binary64)
  | text (s : String)
  | bytes (bs : List UInt8)
  | tagged
  | unreadable
  | seq (items : List Node)
  | map (entries : List (Node × Node))
  deriving Repr, Inhabited

/-- The width that an integer needs. -/
def IntWidth.of (n : Int) : IntWidth :=
  if n < 0 then .signed
  else if n < 0x100 then .octet
  else if n < 0x10000 then .short
  else if n < 0x100000000 then .word
  else .long

namespace Node

/-- The integer in the width that it needs. -/
def ofInt (n : Int) : Node := .int (IntWidth.of n) n

/-- Whether the tree can be taken into memory: it is readable throughout, with arrays and maps
nested at most `room` deep. -/
def holds : Nat → Node → Bool
  | _, unreadable => false
  | 0, seq _ => false
  | 0, map _ => false
  | room + 1, seq items => items.all (holds room)
  | room + 1, map entries => entries.all fun (k, v) => holds room k && holds room v
  | _, _ => true

/-- The text that a tree spells; a byte string counts if it is UTF-8. -/
def text? : Node → Option String
  | text s => some s
  | bytes bs => Text.ofBytes? bs
  | _ => none

/-- Whether entries may stand in an object: the first key has to be a text proper, since it tells
that an object begins. Behind it a byte string may spell a key. -/
def opensObject : List (Node × Node) → Bool
  | [] => true
  | (text _, _) :: _ => true
  | _ => false

/-- The free-form data that a tree spells, with arrays and objects nested at most `room` deep. The
keys of an object spell texts, the first of them as a text proper. A key that comes again replaces
the field, and a double that is no number counts as null. -/
def value? : Nat → Node → Option Value
  | _, null => some .null
  | _, bool b => some (.bool b)
  | _, int _ n => some (.int n)
  | _, double x => some (if x.isFinite then .double x else .null)
  | _, text s => some (.text s)
  | _, bytes _ => none
  | _, tagged => none
  | _, unreadable => none
  | 0, seq _ => none
  | 0, map _ => none
  | room + 1, seq items => (items.mapM (value? room)).map .array
  | room + 1, map entries =>
    if opensObject entries then
      (entries.mapM fun (key, v) => do return (← text? key, ← value? room v)).map
        fun fields => .object (Value.sortFields fields)
    else none

/-- The text that a tree spells, if it is not null. -/
def optionalText? : Node → Option (Option String)
  | null => some none
  | n => n.text?.map some

end Node

mutual

/-- The tree that spells a value. -/
def Value.toNode : Value → Node
  | .null => .null
  | .bool b => .bool b
  | .int n => .ofInt n
  | .double x => .double x
  | .text s => .text s
  | .array items => .seq (Value.toNodes items)
  | .object fields => .map (Value.toEntries fields)

/-- The trees that spell a list of values. -/
def Value.toNodes : List Value → List Node
  | [] => []
  | v :: vs => v.toNode :: Value.toNodes vs

/-- The entries that spell a list of fields. -/
def Value.toEntries : List (String × Value) → List (Node × Node)
  | [] => []
  | (key, v) :: rest => (.text key, v.toNode) :: Value.toEntries rest

end

end DocWire
