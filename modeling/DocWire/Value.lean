import DocWire.Binary64
import DocWire.Text

/-!
# Free-form data

The data model of documents: null, booleans, integers, doubles, texts, arrays and objects. An object
is a list of fields in the order in which they are written. In free-form data that has been
read, every object has its keys in the order of their UTF-8 bytes, each once, which `insertField`
keeps up. For texts the order of UTF-8 bytes is the order of the scalar values.
-/

namespace DocWire

/-- A piece of free-form data. -/
inductive Value where
  | null
  | bool (b : Bool)
  | int (n : Int)
  | double (x : Binary64)
  | text (s : String)
  | array (items : List Value)
  | object (fields : List (String × Value))
  deriving Repr, Inhabited

namespace Value

/-- Puts a field where its key belongs among sorted fields; a field of the same key gives way. -/
def insertField (key : String) (v : Value) : List (String × Value) → List (String × Value)
  | [] => [(key, v)]
  | (k, w) :: rest =>
    if key < k then (key, v) :: (k, w) :: rest
    else if key = k then (key, v) :: rest
    else (k, w) :: insertField key v rest

/-- Fields in sorted order; of fields with the same key the last one stays. -/
def sortFields (fields : List (String × Value)) : List (String × Value) :=
  fields.foldl (fun sorted (key, v) => insertField key v sorted) []

/-- The value of a field. -/
def field? (key : String) : Value → Option Value
  | object fields => fields.lookup key
  | _ => none

/-- Whether a value is null. -/
def isNull : Value → Bool
  | null => true
  | _ => false

/-- Whether a value is an object. -/
def isObject : Value → Bool
  | object _ => true
  | _ => false

end Value

end DocWire
