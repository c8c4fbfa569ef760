import DocWire.Message
import DocWire.Node

/-!
# Reading records

A record may be spelled as a map of its fields in any order, or as an array of them in their order.
In a map, fields with other names are passed over and a field that comes twice is refused; an array
may stop early but not go on after the last field. A field that is missing takes its default, if it
has one. Where a record without a kind or a list of texts is expected, a byte string is the array of
its bytes. No byte is a text, so this matters for the empty one only.

A record with a kind has the kind under `type`, anywhere in the map, or first in the array. What
remains is taken into memory before it is read, so unlike the passed-over fields of other records it
has to be readable throughout.

In MessagePack a field or a kind may be called by its number instead of its name; `NumberRule` says
in which spellings.
-/

namespace DocWire

/-- Which integers may stand for a name: none, unsigned ones of every width, or unsigned ones of the
smallest and of the largest width only. The others lose this meaning when they are taken into
memory. -/
inductive NumberRule where
  | never
  | unsigned
  | narrowOrWide
  deriving DecidableEq, Repr, Inhabited

/-- Whether an integer of this width may stand for a name. -/
def NumberRule.allows : NumberRule → IntWidth → Bool
  | never, _ => false
  | unsigned, w => w != .signed
  | narrowOrWide, w => w == .octet || w == .long

/-- How a record is to be read: which numbers stand for names, and how deep arrays and maps may be
nested. -/
structure Reading where
  numbers : NumberRule
  room : Nat
  deriving DecidableEq, Repr, Inhabited

namespace Reading

/-- Reading what has been taken into memory. -/
def inMemory (r : Reading) : Reading := { r with numbers := .narrowOrWide }

/-- Whether what is read has been taken into memory. -/
def isInMemory (r : Reading) : Bool := r.numbers == .narrowOrWide

/-- Reading one level further in. -/
def deeper (r : Reading) : Reading := { r with room := r.room - 1 }

/-- The number of a name that a tree spells: none if it cannot be a name, `some none` if it is none
of the names. -/
def nameIndex? (r : Reading) (names : List String) : Node → Option (Option Nat)
  | .text s => some (names.idxOf? s)
  | .bytes bs => some ((Text.ofBytes? bs).bind names.idxOf?)
  | .int w n =>
    if r.numbers.allows w then
      some (if n.toNat < names.length then some n.toNat else none)
    else none
  | _ => none

/-- Puts the entries of a map into the places of their fields. -/
def placeEntries? (r : Reading) (names : List String) :
    List (Node × Node) → List (Option Node) → Option (List (Option Node))
  | [], places => some places
  | (key, v) :: rest, places =>
    match r.nameIndex? names key with
    | none => none
    | some none => r.placeEntries? names rest places
    | some (some i) =>
      match places[i]? with
      | some none => r.placeEntries? names rest (places.set i (some v))
      | _ => none

/-- The fields of a record, each in the place of its name. A byte string that has been taken into
memory is no array any more, not even an empty one. -/
def fields? (r : Reading) (names : List String) : Node → Option (List (Option Node))
  | .seq items =>
    if items.length ≤ names.length then
      some (items.map some ++ List.replicate (names.length - items.length) none)
    else none
  | .map entries => r.placeEntries? names entries (List.replicate names.length none)
  | .bytes [] => if r.isInMemory then none else some (List.replicate names.length none)
  | _ => none

/-- Whether a tree spells the name of the field that holds the kind. -/
def isKindKey : Node → Bool
  | .text s => s == "type"
  | .bytes bs => Text.ofBytes? bs == some "type"
  | _ => false

/-- The kind of a record, by its number among all kinds, and the record without it. -/
def kindAndRest? (r : Reading) (kinds : List String) (n : Node) : Option (Nat × Node) :=
  if n.holds r.room then
    match n with
    | .seq (kind :: rest) => do
      let i ← (r.nameIndex? kinds kind).join
      return (i, .seq rest)
    | .map entries =>
      match entries.partition fun e => isKindKey e.1 with
      | ([(_, kind)], rest) => do
        let i ← (r.nameIndex? kinds kind).join
        return (i, .map rest)
      | _ => none
    | _ => none
  else none

end Reading

/-- A field that has to be there and be a text. -/
def requiredText? (place : Option Node) : Option String := place.bind Node.text?

/-- A text field that is empty if it is missing. -/
def textOrEmpty? : Option Node → Option String
  | none => some ""
  | some n => n.text?

/-- A free-form field that has to be there. -/
def requiredValue? (room : Nat) (place : Option Node) : Option Value :=
  place.bind (Node.value? room)

/-- A free-form field that is null if it is missing. -/
def valueOrNull? (room : Nat) : Option Node → Option Value
  | none => some .null
  | some n => n.value? room

/-- A text field that may be missing or null. -/
def optionalField? : Option Node → Option (Option String)
  | none => some none
  | some n => n.optionalText?

/-- Reads a document. -/
def Document.read? (r : Reading) (n : Node) : Option Document := do
  match ← r.fields? Document.fieldNames n with
  | [id, collection, data, createdAt, updatedAt] =>
    return {
      id := ← requiredText? id
      collection := ← requiredText? collection
      data := ← valueOrNull? r.deeper.room data
      createdAt := ← textOrEmpty? createdAt
      updatedAt := ← textOrEmpty? updatedAt }
  | _ => none

namespace ChangeEvent

/-- The fields of each kind of change, in order. -/
def fieldNames : Nat → List String
  | 0 => ["document"]
  | 1 => ["new"]
  | 2 => ["old", "new"]
  | _ => ["old"]

/-- The change of a kind with the given fields. -/
def ofFields? (r : Reading) : Nat → List (Option Node) → Option ChangeEvent
  | 0, [document] => do return .initial (← document.bind (Document.read? r))
  | 1, [new] => do return .insert (← new.bind (Document.read? r))
  | 2, [old, new] => do
    return .update (← valueOrNull? r.room old) (← new.bind (Document.read? r))
  | 3, [old] => do return .delete (← valueOrNull? r.room old)
  | _, _ => none

/-- Reads a change. -/
def read? (r : Reading) (n : Node) : Option ChangeEvent := do
  let (kind, rest) ← r.kindAndRest? kinds n
  let fields ← r.inMemory.fields? (fieldNames kind) rest
  ofFields? r.inMemory.deeper kind fields

end ChangeEvent

namespace ClientMessage

/-- The fields of each kind of message, in order. -/
def fieldNames : Nat → List String
  | 1 => ["id", "query"]
  | 2 => ["id", "collection", "data"]
  | 3 => ["id", "collection", "document_id", "data"]
  | 4 => ["id", "collection", "document_id"]
  | 6 => ["id", "query"]
  | _ => ["id"]

/-- The message of a kind with the given fields. -/
def ofFields? (r : Reading) : Nat → List (Option Node) → Option ClientMessage
  | 0, [id] => do return .ping (← requiredText? id)
  | 1, [id, text] => do return .query (← requiredText? id) (← requiredText? text)
  | 2, [id, collection, data] => do
    return .insert (← requiredText? id) (← requiredText? collection)
      (← requiredValue? r.room data)
  | 3, [id, collection, documentId, data] => do
    return .update (← requiredText? id) (← requiredText? collection) (← requiredText? documentId)
      (← requiredValue? r.room data)
  | 4, [id, collection, documentId] => do
    return .delete (← requiredText? id) (← requiredText? collection) (← requiredText? documentId)
  | 5, [id] => do return .listCollections (← requiredText? id)
  | 6, [id, text] => do return .subscribe (← requiredText? id) (← requiredText? text)
  | 7, [id] => do return .unsubscribe (← requiredText? id)
  | _, _ => none

/-- Reads a message of the client. -/
def read? (r : Reading) (n : Node) : Option ClientMessage := do
  let (kind, rest) ← r.kindAndRest? kinds n
  let fields ← r.inMemory.fields? (fieldNames kind) rest
  ofFields? r.inMemory.deeper kind fields

end ClientMessage

namespace ServerMessage

/-- The fields of each kind of message, in order. -/
def fieldNames : Nat → List String
  | 1 => ["id", "data"]
  | 2 => ["id", "error"]
  | 5 => ["id", "change"]
  | _ => ["id"]

/-- The message of a kind with the given fields. -/
def ofFields? (r : Reading) : Nat → List (Option Node) → Option ServerMessage
  | 0, [id] => do return .pong (← requiredText? id)
  | 1, [id, data] => do return .result (← requiredText? id) (← valueOrNull? r.room data)
  | 2, [id, text] => do return .error (← requiredText? id) (← requiredText? text)
  | 3, [id] => do return .subscribed (← requiredText? id)
  | 4, [id] => do return .unsubscribed (← requiredText? id)
  | 5, [id, event] => do
    return .change (← requiredText? id) (← event.bind (ChangeEvent.read? r))
  | _, _ => none

/-- Reads a message of the peer. -/
def read? (r : Reading) (n : Node) : Option ServerMessage := do
  let (kind, rest) ← r.kindAndRest? kinds n
  let fields ← r.inMemory.fields? (fieldNames kind) rest
  ofFields? r.inMemory.deeper kind fields

end ServerMessage

/-- Reads the fields by which a payload is routed. -/
def Envelope.read? (r : Reading) (n : Node) : Option Envelope := do
  match ← r.fields? ["id", "type"] n with
  | [id, kind] => return ⟨← optionalField? id, ← optionalField? kind⟩
  | _ => none

/-- Reads a push. -/
def ChangeNotification.read? (r : Reading) (n : Node) : Option ChangeNotification := do
  match ← r.fields? ["id", "change"] n with
  | [id, event] =>
    return ⟨← requiredText? id, ← event.bind (ChangeEvent.read? r.deeper)⟩
  | _ => none

/-- Reads free-form data. -/
def Value.read? (r : Reading) (n : Node) : Option Value := n.value? r.room

/-- Reads a list of texts. -/
def readTexts? (r : Reading) : Node → Option (List String)
  | .seq items => items.mapM Node.text?
  | .bytes [] => if r.isInMemory then none else some []
  | _ => none

end DocWire
