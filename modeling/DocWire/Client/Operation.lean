import DocWire.Codec
import DocWire.Correlator

/-!
# Operations of a client

What a caller can ask for, and how the answer comes about: `refusal?` turns an operation down before
anything is sent, `message` is the request that it makes, and `answer` reads its result off the
reply. The reply goes through two readings, from bytes to a message and from the data of the message
to the result.
-/

namespace DocWire

/-- What an operation can come to; a subscription is known by its id. -/
inductive Result where
  | pong
  | data (v : Value)
  | document (d : Document)
  | subscription (id : String)
  deriving Repr, Inhabited

/-- How data is read as what a caller has asked for, if it can be. -/
abbrev Conversion := Value → Option Result

/-- Some types that data is asked for in; an octet has no sign, and an integer has 64 bits. -/
inductive ResultType where
  | value
  | texts
  | text
  | document
  | octet
  | integer
  | bool
  deriving DecidableEq, Repr, Inhabited

/-- What an operation can be asked to do. A body that is missing cannot be written as free-form data,
and the callback of a subscription may fail after every event. -/
inductive Operation where
  | ping
  | query (text : String) (convert? : Conversion)
  | insert (collection : String) (body : Option Value)
  | update (collection documentId : String) (body : Option Value)
  | delete (collection documentId : String)
  | listCollections
  | subscribe (text : String) (callbackFails : Bool)
  deriving Inhabited

namespace Document

/-- The document with the given fields. -/
def ofFields? (id collection data createdAt updatedAt : Option Value) : Option Document :=
  match id, collection, createdAt.getD (.text ""), updatedAt.getD (.text "") with
  | some (.text id), some (.text collection), .text createdAt, .text updatedAt =>
    some ⟨id, collection, data.getD .null, createdAt, updatedAt⟩
  | _, _, _, _ => none

/-- The document that free-form data holds: an object with its fields, or an array of them in their
order, which may stop early. -/
def ofValue? : Value → Option Document
  | .object fields =>
    ofFields? (fields.lookup "id") (fields.lookup "collection") (fields.lookup "data")
      (fields.lookup "created_at") (fields.lookup "updated_at")
  | .array items =>
    if items.length ≤ fieldNames.length then
      ofFields? items[0]? items[1]? items[2]? items[3]? items[4]?
    else none
  | _ => none

end Document

namespace ResultType

/-- Whether an item is a text. -/
def isText : Value → Bool
  | .text _ => true
  | _ => false

/-- The result of a type that free-form data holds. -/
def convert? : ResultType → Conversion
  | value, v => some (.data v)
  | texts, .array items => if items.all isText then some (.data (.array items)) else none
  | text, .text s => some (.data (.text s))
  | document, v => (Document.ofValue? v).map .document
  | octet, .int n => if 0 ≤ n ∧ n < 0x100 then some (.data (.int n)) else none
  | integer, .int n =>
    if -0x8000000000000000 ≤ n ∧ n < 0x8000000000000000 then some (.data (.int n)) else none
  | bool, .bool b => some (.data (.bool b))
  | _, _ => none

instance : Coe ResultType Conversion := ⟨convert?⟩

end ResultType

/-- The result that free-form data is read as, or a failure. -/
def Result.ofData (convert? : Conversion) (v : Value) : Except Failure Result :=
  match convert? v with
  | some r => .ok r
  | none => .error (.decodeFailed .malformed)

namespace Operation

/-- The failure of an argument that is empty. -/
def missing? (argument : Argument) (s : String) : Option Failure :=
  if s.isEmpty then some (.invalidArgument (.missing argument)) else none

/-- The failure of a body that is no object. -/
def bodyFault? : Option Value → Option Failure
  | none => some (.encodeFailed .unserializable)
  | some v => if v.isObject then none else some (.invalidArgument .bodyNotObject)

/-- Why an operation is turned down before anything is sent. -/
def refusal? : Operation → Option Failure
  | query text _ => missing? .query text
  | insert collection body => missing? .collection collection <|> bodyFault? body
  | update collection documentId body =>
    missing? .collection collection <|> missing? .documentId documentId <|> bodyFault? body
  | delete collection documentId =>
    missing? .collection collection <|> missing? .documentId documentId
  | subscribe text _ => missing? .query text
  | ping | listCollections => none

/-- The request that an operation makes under an id. -/
def message (id : String) : Operation → ClientMessage
  | ping => .ping id
  | query text _ => .query id text
  | insert collection body => .insert id collection (body.getD .null)
  | update collection documentId body => .update id collection documentId (body.getD .null)
  | delete collection documentId => .delete id collection documentId
  | listCollections => .listCollections id
  | subscribe text _ => .subscribe id text

/-- The message of a reply; a message that tells of a failure is that failure. -/
def open? (reply : Reply) : Except Failure ServerMessage :=
  match reply.encoding.decode ServerMessage.read? reply.payload with
  | .error e => .error e
  | .ok (.error _ text) => .error (.serverError text)
  | .ok m => .ok m

/-- The data of a reply that has to be a result. -/
def resultData (reply : Reply) : Except Failure Value :=
  match open? reply with
  | .error e => .error e
  | .ok (.result _ data) => .ok data
  | .ok m => .error (.decodeFailed (.unexpectedReply "result" m.kind))

/-- The document that a result holds; null stands for a document that is not there. -/
def foundDocument (collection documentId : String) (data : Value) : Except Failure Result :=
  if data.isNull then
    .error (.notFound ("document " ++ documentId ++ " in collection " ++ collection))
  else Result.ofData ResultType.document data

/-- The result of an operation, read off the reply to the request with the given id. -/
def answer (id : String) (reply : Reply) : Operation → Except Failure Result
  | ping =>
    match open? reply with
    | .error e => .error e
    | .ok (.pong _) => .ok .pong
    | .ok m => .error (.decodeFailed (.unexpectedReply "pong" m.kind))
  | query _ convert? =>
    match resultData reply with
    | .error e => .error e
    | .ok data => Result.ofData convert? data
  | insert _ _ =>
    match resultData reply with
    | .error e => .error e
    | .ok data => Result.ofData ResultType.document data
  | update collection documentId _ | delete collection documentId =>
    match resultData reply with
    | .error e => .error e
    | .ok data => foundDocument collection documentId data
  | listCollections =>
    match resultData reply with
    | .error e => .error e
    | .ok data => Result.ofData ResultType.texts data
  | subscribe _ _ =>
    match open? reply with
    | .error e => .error e
    | .ok _ => .ok (.subscription id)

/-- Whether an operation opens a subscription. -/
def isSubscribe : Operation → Bool
  | subscribe _ _ => true
  | _ => false

end Operation

end DocWire
