import DocWire.Value

/-!
# Messages

What the payloads of frames mean. Every message is a record with a `type`, its kind, and an `id`:
the id of the request that it is, or that it answers, or of the subscription that it belongs to. A
message of the kind `change` is a push for a subscription, all others of the peer are replies.

A record is written as an object with the `type` first and the other fields in a fixed order
(`toValue`).
-/

namespace DocWire

/-- A stored document. -/
structure Document where
  id : String
  collection : String
  data : Value
  createdAt : String
  updatedAt : String
  deriving Repr, Inhabited

/-- A change that a subscription is told of: a document that matched when it was opened, a new one,
one with the data that it had before, or the last data of one that is gone. -/
inductive ChangeEvent where
  | initial (document : Document)
  | insert (document : Document)
  | update (old : Value) (document : Document)
  | delete (old : Value)
  deriving Repr, Inhabited

/-- The messages of the client; `unsubscribe` has the id of the subscription that it closes. -/
inductive ClientMessage where
  | ping (id : String)
  | query (id query : String)
  | insert (id collection : String) (data : Value)
  | update (id collection documentId : String) (data : Value)
  | delete (id collection documentId : String)
  | listCollections (id : String)
  | subscribe (id query : String)
  | unsubscribe (id : String)
  deriving Repr, Inhabited

/-- The messages of the peer. -/
inductive ServerMessage where
  | pong (id : String)
  | result (id : String) (data : Value)
  | error (id text : String)
  | subscribed (id : String)
  | unsubscribed (id : String)
  | change (id : String) (event : ChangeEvent)
  deriving Repr, Inhabited

/-- The two fields by which a payload is routed, as far as it has them. -/
structure Envelope where
  id : Option String
  kind : Option String
  deriving DecidableEq, Repr, Inhabited

/-- A push as its subscription sees it. -/
structure ChangeNotification where
  id : String
  event : ChangeEvent
  deriving Repr, Inhabited

namespace Document

/-- The names of the fields, in order. -/
def fieldNames : List String := ["id", "collection", "data", "created_at", "updated_at"]

/-- A document as an object. -/
def toValue (d : Document) : Value :=
  .object [("id", .text d.id), ("collection", .text d.collection), ("data", d.data),
    ("created_at", .text d.createdAt), ("updated_at", .text d.updatedAt)]

end Document

namespace ChangeEvent

/-- The kinds of change, in the order of their numbers. -/
def kinds : List String := ["initial", "insert", "update", "delete"]

/-- The number of a kind of change. -/
def number : ChangeEvent → Nat
  | initial _ => 0
  | insert _ => 1
  | update _ _ => 2
  | delete _ => 3

/-- The document as it is now, if there is one. -/
def document? : ChangeEvent → Option Document
  | initial d | insert d | update _ d => some d
  | delete _ => none

/-- The data from before the change, if it is told. -/
def old? : ChangeEvent → Option Value
  | update old _ | delete old => some old
  | _ => none

/-- A change as an object. -/
def toValue : ChangeEvent → Value
  | initial d => .object [("type", .text "initial"), ("document", d.toValue)]
  | insert d => .object [("type", .text "insert"), ("new", d.toValue)]
  | update old d => .object [("type", .text "update"), ("old", old), ("new", d.toValue)]
  | delete old => .object [("type", .text "delete"), ("old", old)]

end ChangeEvent

namespace ClientMessage

/-- The kinds of message, in order. -/
def kinds : List String :=
  ["ping", "query", "insert", "update", "delete", "listcollections", "subscribe", "unsubscribe"]

/-- The id of a message. -/
def id : ClientMessage → String
  | ping id | query id _ | insert id _ _ | update id _ _ _ | delete id _ _ | listCollections id
  | subscribe id _ | unsubscribe id => id

/-- A message as an object. -/
def toValue : ClientMessage → Value
  | ping id => .object [("type", .text "ping"), ("id", .text id)]
  | query id text =>
    .object [("type", .text "query"), ("id", .text id), ("query", .text text)]
  | insert id collection data =>
    .object [("type", .text "insert"), ("id", .text id), ("collection", .text collection),
      ("data", data)]
  | update id collection documentId data =>
    .object [("type", .text "update"), ("id", .text id), ("collection", .text collection),
      ("document_id", .text documentId), ("data", data)]
  | delete id collection documentId =>
    .object [("type", .text "delete"), ("id", .text id), ("collection", .text collection),
      ("document_id", .text documentId)]
  | listCollections id => .object [("type", .text "listcollections"), ("id", .text id)]
  | subscribe id text =>
    .object [("type", .text "subscribe"), ("id", .text id), ("query", .text text)]
  | unsubscribe id => .object [("type", .text "unsubscribe"), ("id", .text id)]

end ClientMessage

namespace ServerMessage

/-- The kinds of message, in order. -/
def kinds : List String :=
  ["pong", "result", "error", "subscribed", "unsubscribed", "change"]

/-- The id of a message. -/
def id : ServerMessage → String
  | pong id | result id _ | error id _ | subscribed id | unsubscribed id | change id _ => id

/-- The kind of a message. -/
def kind : ServerMessage → String
  | pong _ => "pong"
  | result _ _ => "result"
  | error _ _ => "error"
  | subscribed _ => "subscribed"
  | unsubscribed _ => "unsubscribed"
  | change _ _ => "change"

/-- A message as an object. -/
def toValue : ServerMessage → Value
  | pong id => .object [("type", .text "pong"), ("id", .text id)]
  | result id data => .object [("type", .text "result"), ("id", .text id), ("data", data)]
  | error id text => .object [("type", .text "error"), ("id", .text id), ("error", .text text)]
  | subscribed id => .object [("type", .text "subscribed"), ("id", .text id)]
  | unsubscribed id => .object [("type", .text "unsubscribed"), ("id", .text id)]
  | change id event =>
    .object [("type", .text "change"), ("id", .text id), ("change", event.toValue)]

end ServerMessage

namespace Envelope

/-- Whether the payload is a push. -/
def isChange (e : Envelope) : Bool := e.kind == some "change"

/-- Whether the payload is the reply to a request that failed. -/
def isError (e : Envelope) : Bool := e.kind == some "error"

end Envelope

end DocWire
