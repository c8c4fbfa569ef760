import DocWire.Proofs.Client.Replies
import DocWire.Proofs.Message.FreeForm
import DocWire.Proofs.Message.Views

/-! # What a reply says

A reply goes through two readings: its payload is read as a message, in whatever encoding its frame
names, and the data of a result is read as what the operation has asked for. In between every message
of a wrong kind is sorted out. So each outcome of an operation stands for one kind of reply and no
other (`Operation.understands`).

Data is read more generously than it is written: a document may lack fields or be spelled as an array
of them (`Document.IsIn`), and a result without data has null for it. A document that is written as the
data of a result is always found (`Operation.answer_of_carried`). -/

namespace DocWire

/-! ### Documents in free-form data -/

namespace Document

/-- Whether the fields of a document are found under their names: the data may be missing if it is
null, and a time if it is empty. -/
structure FoundBy (d : Document) (field? : String → Option Value) : Prop where
  id : field? "id" = some (.text d.id)
  collection : field? "collection" = some (.text d.collection)
  data : field? "data" = some d.data ∨ field? "data" = none ∧ d.data = .null
  createdAt : field? "created_at" = some (.text d.createdAt) ∨
    field? "created_at" = none ∧ d.createdAt = ""
  updatedAt : field? "updated_at" = some (.text d.updatedAt) ∨
    field? "updated_at" = none ∧ d.updatedAt = ""

/-- Whether free-form data is a document: an object with its fields, whatever else is in it, or the
array of its fields in order, which may stop early but not go on. -/
inductive IsIn (d : Document) : Value → Prop
  | object {fields : List (String × Value)} (h : d.FoundBy fun name => fields.lookup name) :
    d.IsIn (.object fields)
  | array {items : List Value} (hl : items.length ≤ 5)
      (h : d.FoundBy fun name => (fieldNames.idxOf? name).bind fun i => items[i]?) :
    d.IsIn (.array items)

variable {d : Document} {v : Value}

theorem getD_text_eq {o : Option Value} {s : String} :
    o.getD (.text "") = .text s ↔ o = some (.text s) ∨ o = none ∧ s = "" := by
  cases o with
  | none => simp [eq_comm]
  | some v => simp

theorem getD_null_eq {o : Option Value} :
    o.getD .null = v ↔ o = some v ∨ o = none ∧ v = .null := by
  cases o with
  | none => simp [eq_comm]
  | some w => simp

theorem ofFields?_eq_some_iff (field? : String → Option Value) :
    ofFields? (field? "id") (field? "collection") (field? "data") (field? "created_at")
      (field? "updated_at") = some d ↔ d.FoundBy field? := by
  constructor
  · intro h
    unfold ofFields? at h
    split at h
    next id collection createdAt updatedAt hi hc ht hu =>
      cases h
      exact ⟨hi, hc, getD_null_eq.1 rfl, getD_text_eq.1 ht, getD_text_eq.1 hu⟩
    next => cases h
  · intro h
    unfold ofFields?
    rw [h.id, h.collection, getD_text_eq.2 h.createdAt, getD_text_eq.2 h.updatedAt,
      getD_null_eq.2 h.data]

/-- **What is taken for a document.** -/
theorem ofValue?_eq_some_iff : ofValue? v = some d ↔ d.IsIn v := by
  constructor
  · intro h
    unfold ofValue? at h
    split at h
    next fields => exact .object ((ofFields?_eq_some_iff fun name => fields.lookup name).1 h)
    next items =>
      obtain ⟨hl, h⟩ := Option.ite_none_right_eq_some.1 h
      refine .array hl ((ofFields?_eq_some_iff fun name =>
        (fieldNames.idxOf? name).bind fun i => items[i]?).1 h)
    next => cases h
  · intro h
    cases h with
    | @object fields h => exact (ofFields?_eq_some_iff fun name => fields.lookup name).2 h
    | @array items hl h =>
      refine Option.ite_none_right_eq_some.2 ⟨hl, ?_⟩
      exact (ofFields?_eq_some_iff fun name =>
        (fieldNames.idxOf? name).bind fun i => items[i]?).2 h

theorem Shown.isIn (h : d.Shown v) : d.IsIn v := by
  have hn : fieldNames.Nodup := by decide
  obtain ⟨fields, rfl, hl, hp⟩ := h
  have hr : d.Shown (.object fields) := ⟨fields, rfl, hl, hp⟩
  have found : ∀ {name w}, (name, w) ∈ fieldNames.zip
      [.text d.id, .text d.collection, d.data, .text d.createdAt, .text d.updatedAt] →
      fields.lookup name = some w := fun hm => hr.field?_eq_some hn hm
  exact .object ⟨found (by simp [fieldNames]), found (by simp [fieldNames]),
    .inl (found (by simp [fieldNames])), .inl (found (by simp [fieldNames])),
    .inl (found (by simp [fieldNames]))⟩

end Document

namespace ResultType

variable {t : ResultType} {v : Value} {r : Result}

/-- What free-form data is as a result of a type. -/
inductive Holds : ResultType → Value → Result → Prop
  | value (v : Value) : Holds .value v (.data v)
  | texts {items : List Value} (h : ∀ v ∈ items, ∃ s, v = .text s) :
    Holds .texts (.array items) (.data (.array items))
  | text (s : String) : Holds .text (.text s) (.data (.text s))
  | document {d : Document} {v : Value} (h : d.IsIn v) : Holds .document v (.document d)
  | octet {n : Int} (hl : 0 ≤ n) (hu : n < 2 ^ 8) : Holds .octet (.int n) (.data (.int n))
  | integer {n : Int} (hl : -2 ^ 63 ≤ n) (hu : n < 2 ^ 63) :
    Holds .integer (.int n) (.data (.int n))
  | bool (b : Bool) : Holds .bool (.bool b) (.data (.bool b))

theorem isText_iff : isText v = true ↔ ∃ s, v = .text s := by
  cases v <;> simp [isText]

/-- **What free-form data is converted to.** -/
theorem convert?_eq_some_iff : t.convert? v = some r ↔ t.Holds v r := by
  constructor
  · intro h
    unfold convert? at h
    split at h
    · cases h
      exact .value v
    next items =>
      obtain ⟨ht, h⟩ := Option.ite_none_right_eq_some.1 h
      cases h
      exact .texts fun v hv => isText_iff.1 (List.all_eq_true.1 ht v hv)
    · cases h
      exact .text _
    · obtain ⟨d, hd, rfl⟩ := Option.map_eq_some_iff.1 h
      exact .document (Document.ofValue?_eq_some_iff.1 hd)
    · obtain ⟨⟨hl, hu⟩, h⟩ := Option.ite_none_right_eq_some.1 h
      cases h
      exact .octet hl hu
    · obtain ⟨⟨hl, hu⟩, h⟩ := Option.ite_none_right_eq_some.1 h
      cases h
      exact .integer hl hu
    · cases h
      exact .bool _
    · cases h
  · intro h
    cases h with
    | value v => rfl
    | @texts items h =>
      refine Option.ite_none_right_eq_some.2 ⟨List.all_eq_true.2 fun v hv => ?_, rfl⟩
      exact isText_iff.2 (h v hv)
    | text s => rfl
    | document h => exact Option.map_eq_some_iff.2 ⟨_, Document.ofValue?_eq_some_iff.2 h, rfl⟩
    | octet hl hu => exact Option.ite_none_right_eq_some.2 ⟨⟨hl, hu⟩, rfl⟩
    | integer hl hu => exact Option.ite_none_right_eq_some.2 ⟨⟨hl, hu⟩, rfl⟩
    | bool b => rfl

theorem convert?_document_null : document.convert? .null = none := rfl

end ResultType

namespace Result

variable {convert? : Conversion} {v : Value} {r : Result}

theorem ofData_eq_ok_iff : ofData convert? v = .ok r ↔ convert? v = some r := by
  unfold ofData
  cases convert? v <;> simp

theorem ofData_of_none (h : convert? v = none) :
    ofData convert? v = .error (.decodeFailed .malformed) := by
  rw [ofData, h]

end Result

/-! ### Messages in replies -/

namespace Reply

/-- The message that a reply holds, if it holds one. -/
def message? (reply : Reply) : Option ServerMessage :=
  reply.encoding.decode? ServerMessage.read? reply.payload

/-- The payload of a reply spells a result with an id, and with data if there is any. -/
def IsResult (reply : Reply) (id : String) (data : Option Node) : Prop :=
  ∃ n rest node, reply.encoding.parse? reply.payload = some n ∧
    reply.encoding.reading.kindAndRest? ServerMessage.kinds n = some (1, rest) ∧
    reply.encoding.reading.inMemory.fields? ["id", "data"] rest = some [some node, data] ∧
    node.text? = some id

end Reply

theorem ServerMessage.ofFields?_eq_result {r : Reading} {i : Nat} {fields : List (Option Node)}
    {id : String} {v : Value} (h : ofFields? r i fields = some (.result id v)) :
    i = 1 ∧ ∃ node data, fields = [some node, data] ∧ node.text? = some id ∧
      valueOrNull? r.room data = some v := by
  have hi : i = 1 := by
    have hk := (ofFields?_spec h).1
    have hx : ∀ i < 6, kinds[i]? = some "result" → i = 1 := by decide
    refine hx i ?_ hk
    exact (List.getElem?_eq_some_iff.1 hk).choose
  subst hi
  unfold ofFields? at h
  split at h
  all_goals first | omega | skip
  next place data _ =>
    obtain ⟨s, hs, h⟩ := Option.bind_eq_some_iff.1 h
    obtain ⟨w, hw, h⟩ := Option.bind_eq_some_iff.1 h
    cases h
    obtain ⟨node, rfl, hs⟩ := Option.bind_eq_some_iff.1 hs
    exact ⟨rfl, node, data, rfl, hs, hw⟩
  next => cases h

namespace Reply

variable {reply : Reply} {id : String} {v : Value} {m : ServerMessage}

/-- **A result has the data that its payload spells, and null if there is none.** -/
theorem message?_eq_result_iff : reply.message? = some (.result id v) ↔
    ∃ data, reply.IsResult id data ∧
      valueOrNull? reply.encoding.reading.inMemory.deeper.room data = some v := by
  constructor
  · intro h
    obtain ⟨n, hn, h⟩ := Option.bind_eq_some_iff.1 h
    obtain ⟨⟨i, rest⟩, hk, h⟩ := Option.bind_eq_some_iff.1 h
    obtain ⟨fields, hf, h⟩ := Option.bind_eq_some_iff.1 h
    obtain ⟨rfl, node, data, rfl, hs, hv⟩ := ServerMessage.ofFields?_eq_result h
    exact ⟨data, ⟨n, rest, node, hn, hk, hf, hs⟩, hv⟩
  · rintro ⟨data, ⟨n, rest, node, hn, hk, hf, hs⟩, hv⟩
    have ho : ServerMessage.ofFields? reply.encoding.reading.inMemory.deeper 1 [some node, data] =
        some (.result id v) := by
      simp [ServerMessage.ofFields?, requiredText?, hs, hv]
    refine Option.bind_eq_some_iff.2 ⟨n, hn, ?_⟩
    exact Option.bind_eq_some_iff.2 ⟨(1, rest), hk, Option.bind_eq_some_iff.2 ⟨_, hf, ho⟩⟩

/-- The data of a result is null if it is missing, or if it is spelled as null. -/
theorem message?_eq_null_iff : reply.message? = some (.result id .null) ↔
    ∃ data, reply.IsResult id data ∧ ∀ node, data = some node →
      node.value? reply.encoding.reading.inMemory.deeper.room = some .null := by
  rw [message?_eq_result_iff]
  refine exists_congr fun data => and_congr_right fun _ => ?_
  cases data with
  | none => simp [valueOrNull?]
  | some node => simp [valueOrNull?]

end Reply

/-! ### Written documents -/

/-- **Both encodings spell the same tree** for a value without doubles. -/
theorem Encoding.parse?_print (e : Encoding) {v : Value} (hb : v.Bounded) (hx : v.Exact)
    (hd : v.depth < 128) (hs : e = messagePack → v.Short) :
    e.parse? (e.print v) = some v.toNode := by
  cases e with
  | messagePack =>
    have h := MessagePack.parse?_print hb (hs rfl) (by unfold MessagePack.maxNesting; omega) []
    rwa [List.append_nil] at h
  | json =>
    have h : Json.parse? ([] ++ Json.print v ++ []) = some (Json.tree v) :=
      Json.parse?_print hb rfl rfl
    rwa [Json.tree_of_exact hx, List.nil_append, List.append_nil] at h

theorem Value.reads_object {fields : List (String × Value)} (hp : ∀ f ∈ fields, f.2.Proper) :
    (object fields).Reads (object (sortFields fields)) := by
  intro room hd
  obtain ⟨n, rfl, hf⟩ := depth_object_le.1 hd
  have ho : Node.opensObject (fields.map fun f => (.text f.1, f.2.toNode)) = true := by
    cases fields <;> rfl
  rw [toNode_object, Node.value?, if_pos ho, mapM_map_some (k := id)]
  · rw [List.map_id, Option.map_some]
  · intro f hm
    simp [Node.text?, f.2.value?_toNode (hp f hm) (hf f hm)]

namespace Document.Shown

variable {d : Document} {v : Value}

theorem exists_fields (h : d.Shown v) : ∃ fields, v = .object fields ∧
    (fields.map (·.1)).Nodup ∧ ∀ f ∈ fields, f.2 = d.data ∨ ∃ s, f.2 = .text s := by
  obtain ⟨fields, rfl, hl, hp⟩ := h
  refine ⟨fields, rfl, ?_, fun f hf => ?_⟩
  · rw [(hp.map _).nodup_iff, List.map_fst_zip (Nat.le_of_eq hl.symm)]
    decide
  · have hm := (List.of_mem_zip (a := f.1) (b := f.2) (hp.mem_iff.1 hf)).2
    simp only [List.mem_cons, List.not_mem_nil, or_false] at hm
    rcases hm with hm | hm | hm | hm | hm
    · exact .inr ⟨_, hm⟩
    · exact .inr ⟨_, hm⟩
    · exact .inl hm
    · exact .inr ⟨_, hm⟩
    · exact .inr ⟨_, hm⟩

theorem exists_reads (h : d.Shown v) (hp : d.data.Proper) : ∃ w, d.Shown w ∧ v.Reads w := by
  obtain ⟨fields, rfl, hn, hf⟩ := h.exists_fields
  obtain ⟨fields', he, hl, hperm⟩ := h
  cases he
  refine ⟨_, ⟨_, rfl, hl, (Value.perm_sortFields hn).trans hperm⟩,
    Value.reads_object fun f hm => ?_⟩
  rcases hf f hm with he | ⟨s, he⟩
  · rwa [he]
  · rw [he]
    rfl

theorem depth_le (h : d.Shown v) : v.depth ≤ d.data.depth + 1 := by
  obtain ⟨fields, rfl, -, hf⟩ := h.exists_fields
  refine Value.depth_object_le.2 ⟨_, rfl, fun f hm => ?_⟩
  rcases hf f hm with he | ⟨s, he⟩
  · rw [he]
  · rw [he]
    exact Nat.zero_le _

theorem bounded (h : d.Shown v) (hb : d.data.Bounded) : v.Bounded := by
  obtain ⟨fields, rfl, -, hf⟩ := h.exists_fields
  refine Value.bounded_object.2 fun f hm => ?_
  rcases hf f hm with he | ⟨s, he⟩
  · rwa [he]
  · rw [he]
    rfl

theorem exact (h : d.Shown v) (hx : d.data.Exact) : v.Exact := by
  obtain ⟨fields, rfl, -, hf⟩ := h.exists_fields
  refine Value.all_object.2 ⟨rfl, fun f hm => ?_⟩
  rcases hf f hm with he | ⟨s, he⟩
  · rwa [he]
  · rw [he]
    rfl

end Document.Shown

theorem ServerMessage.read?_result {r : Reading} {i : String} {v w : Value} (h : v.Reads w)
    (hd : (result i v).toValue.depth ≤ r.room) :
    read? r (result i v).toValue.toNode = some (.result i w) := by
  refine (Reading.read_tagged fieldNames _ 1 "result" [.text i, v.toNode] rfl (by decide) rfl
    ((result i v).toValue.holds_toNode hd)).trans ?_
  have hx := Value.depth_of_mem (f := ("data", v)) hd (by simp)
  have hv : v.toNode.value? r.inMemory.deeper.room = some w := h _ hx
  simp [ofFields?, requiredText?, valueOrNull?, Node.text?, hv]

/-- A payload is written as a result with an id and a document for its data, whose fields may stand in
any order. The document has no doubles and is nested less than a hundred levels deep, and the payload
is not larger than a frame can be. -/
structure Document.Carried (d : Document) (encoding : Encoding) (i : String)
    (payload : List UInt8) : Prop where
  proper : d.data.Proper
  exact : d.data.Exact
  depth : d.data.depth < 100
  size : payload.length < 2 ^ 32
  print : ∃ v, d.Shown v ∧ payload = encoding.print (ServerMessage.result i v).toValue

namespace Document.Carried

variable {d : Document} {encoding : Encoding} {i : String} {payload : List UInt8}

/-- What such a payload spells. -/
theorem exists_parse (h : d.Carried encoding i payload) : ∃ v, d.Shown v ∧
    (ServerMessage.result i v).toValue.depth ≤ encoding.reading.room ∧
    encoding.parse? payload = some (ServerMessage.result i v).toValue.toNode := by
  obtain ⟨v, hv, rfl⟩ := h.print
  have hd : (ServerMessage.result i v).toValue.depth ≤ 102 := by
    have hdata := hv.depth_le
    have hdepth := h.depth
    refine Value.depth_object_le.2 ⟨101, rfl, ?_⟩
    simp [Value.depth]
    omega
  have hb : (ServerMessage.result i v).toValue.Bounded := by
    simp [ServerMessage.toValue, Value.bounded_object, Value.bounded_text,
      hv.bounded h.proper.bounded]
  have hx : (ServerMessage.result i v).toValue.Exact := by
    have hdata : v.all Value.isExact = true := hv.exact h.exact
    refine Value.all_object.2 ⟨rfl, ?_⟩
    simpa [Value.all, Value.isExact] using hdata
  refine ⟨v, hv, ?_, encoding.parse?_print hb hx (by omega) fun he => ?_⟩
  · cases encoding
    · simp only [Encoding.reading, MessagePack.maxNesting]; omega
    · simp only [Encoding.reading, Encoding.jsonRoom]; omega
  · subst he
    exact MessagePack.short_of_length_print h.size

theorem exists_message (h : d.Carried encoding i payload) : ∃ w, d.Shown w ∧
    (⟨encoding, payload⟩ : Reply).message? = some (.result i w) := by
  obtain ⟨v, hv, hd, hparse⟩ := h.exists_parse
  obtain ⟨w, hw, hr⟩ := hv.exists_reads h.proper
  exact ⟨w, hw, Option.bind_eq_some_iff.2 ⟨_, hparse, ServerMessage.read?_result hr hd⟩⟩

theorem reply?_eq {f : Frame} (h : d.Carried encoding i f.payload)
    (he : f.header.encoding? = some encoding) :
    f.reply? = some (i, ⟨encoding, f.payload⟩) := by
  obtain ⟨v, -, -, hparse⟩ := h.exists_parse
  have hv : f.envelope? = some ⟨some i, some "result"⟩ := by
    unfold Frame.envelope?
    rw [he, Option.bind_some, Encoding.decode?, hparse, Option.bind_some]
    exact Envelope.read?_toValue (.result i v) (fun _ => rfl) Value.toNode_object
  unfold Frame.reply?
  rw [he, hv]
  rfl

end Document.Carried

/-! ### What operations make of replies -/

namespace Operation

/-- How an operation reads the data of its result, if it asks for any. -/
def conversion? : Operation → Option Conversion
  | query _ convert? => some convert?
  | insert _ _ | update _ _ _ | delete _ _ => some ResultType.document
  | listCollections => some ResultType.texts
  | ping | subscribe _ _ => none

/-- The document that an operation is about, by its collection and its id. -/
def subject? : Operation → Option (String × String)
  | update collection documentId _ | delete collection documentId => some (collection, documentId)
  | _ => none

variable {op : Operation} {id i : String} {reply : Reply} {convert? : Conversion} {m : ServerMessage}
  {v : Value} {r : Result} {e : Failure}

theorem isSubscribe_iff : op.isSubscribe = true ↔ ∃ text fails, op = .subscribe text fails := by
  cases op <;> simp [isSubscribe]

/-- **What a reply says to an operation**, case by case. There may be no message in the reply, or
one that tells of a failure; the document that the operation is about may not be there (`missing`),
and the data may not be what the operation has asked for (`misfit`). -/
inductive Says (id : String) (reply : Reply) : Operation → Except Failure Result → Prop
  | unread {op : Operation} (hm : reply.message? = none) :
    Says id reply op (.error (.decodeFailed .malformed))
  | failed {op : Operation} {i text : String} (hm : reply.message? = some (.error i text)) :
    Says id reply op (.error (.serverError text))
  | pong {i : String} (hm : reply.message? = some (.pong i)) : Says id reply .ping (.ok .pong)
  | noPong {m : ServerMessage} (hm : reply.message? = some m) (he : m.isError = false)
      (hk : ∀ i, m ≠ .pong i) :
    Says id reply .ping (.error (.decodeFailed (.unexpectedReply "pong" m.kind)))
  | opened {m : ServerMessage} {text : String} {fails : Bool} (hm : reply.message? = some m)
      (he : m.isError = false) :
    Says id reply (.subscribe text fails) (.ok (.subscription id))
  | noResult {op : Operation} {convert? : Conversion} {m : ServerMessage}
      (ht : op.conversion? = some convert?) (hm : reply.message? = some m) (he : m.isError = false)
      (hk : ∀ i v, m ≠ .result i v) :
    Says id reply op (.error (.decodeFailed (.unexpectedReply "result" m.kind)))
  | missing {op : Operation} {collection documentId i : String}
      (hs : op.subject? = some (collection, documentId))
      (hm : reply.message? = some (.result i .null)) :
    Says id reply op
      (.error (.notFound ("document " ++ documentId ++ " in collection " ++ collection)))
  | data {op : Operation} {convert? : Conversion} {i : String} {v : Value} {r : Result}
      (ht : op.conversion? = some convert?) (hm : reply.message? = some (.result i v))
      (hv : convert? v = some r) :
    Says id reply op (.ok r)
  | misfit {op : Operation} {convert? : Conversion} {i : String} {v : Value}
      (ht : op.conversion? = some convert?) (hm : reply.message? = some (.result i v))
      (hs : op.subject? = none ∨ v ≠ .null) (hv : convert? v = none) :
    Says id reply op (.error (.decodeFailed .malformed))

theorem open?_of_none (hm : reply.message? = none) :
    open? reply = .error (.decodeFailed .malformed) := by
  unfold open? Encoding.decode
  rw [show reply.encoding.decode? ServerMessage.read? reply.payload = none from hm]

theorem open?_of_error {text : String} (hm : reply.message? = some (.error i text)) :
    open? reply = .error (.serverError text) := by
  unfold open? Encoding.decode
  rw [show reply.encoding.decode? ServerMessage.read? reply.payload = _ from hm]

theorem open?_of_some (hm : reply.message? = some m) (he : m.isError = false) :
    open? reply = .ok m := by
  unfold open? Encoding.decode
  rw [show reply.encoding.decode? ServerMessage.read? reply.payload = some m from hm]
  cases m <;> first | rfl | cases he

/-- A reply that holds no message, or one that tells of a failure, is the same to all operations. -/
theorem answer_of_open?_error (ho : open? reply = .error e) : op.answer id reply = .error e := by
  have hd : resultData reply = .error e := by rw [resultData, ho]
  cases op <;> simp only [answer, ho, hd]

/-- What is made of the data of a result. -/
theorem answer_of_result (ht : op.conversion? = some convert?)
    (ho : open? reply = .ok (.result i v)) :
    op.answer id reply = match op.subject? with
      | some (collection, documentId) => foundDocument collection documentId v
      | none => Result.ofData convert? v := by
  have hd : resultData reply = .ok v := by rw [resultData, ho]
  cases op <;> cases ht <;> simp only [answer, hd, subject?]

theorem answer_of_noResult (ht : op.conversion? = some convert?) (ho : open? reply = .ok m)
    (hk : ∀ i v, m ≠ .result i v) :
    op.answer id reply = .error (.decodeFailed (.unexpectedReply "result" m.kind)) := by
  have hd : resultData reply = .error (.decodeFailed (.unexpectedReply "result" m.kind)) := by
    unfold resultData
    rw [ho]
    cases m with
    | result i v => exact absurd rfl (hk i v)
    | _ => rfl
  cases op <;> cases ht <;> simp only [answer, hd]

theorem conversion?_of_subject? {p : String × String} (hs : op.subject? = some p) :
    op.conversion? = some ResultType.document := by
  cases op <;> first | rfl | cases hs

/-- Data is converted, unless it tells that there is no such document. -/
theorem answer_of_data (ht : op.conversion? = some convert?)
    (hm : reply.message? = some (.result i v)) (hs : op.subject? = none ∨ v ≠ .null) :
    op.answer id reply = Result.ofData convert? v := by
  rw [answer_of_result ht (open?_of_some hm rfl)]
  cases hp : op.subject? with
  | none => rfl
  | some p =>
    have hv : v ≠ .null := hs.resolve_left (by simp [hp])
    have hn : v.isNull = false := by cases v <;> first | rfl | exact absurd rfl hv
    have hd := conversion?_of_subject? hp
    rw [ht] at hd
    cases hd
    dsimp only
    rw [foundDocument, hn]
    rfl

/-- **The answer of an operation is what the reply says to it.** -/
theorem Says.answer_eq {a : Except Failure Result} (h : Says id reply op a) :
    op.answer id reply = a := by
  cases h with
  | unread hm => exact answer_of_open?_error (open?_of_none hm)
  | failed hm => exact answer_of_open?_error (open?_of_error hm)
  | pong hm => simp only [answer, open?_of_some hm rfl]
  | @noPong m hm he hk =>
    unfold answer
    dsimp only
    rw [open?_of_some hm he]
    cases m with
    | pong i => exact absurd rfl (hk i)
    | _ => rfl
  | opened hm he => simp only [answer, open?_of_some hm he]
  | noResult ht hm he hk => exact answer_of_noResult ht (open?_of_some hm he) hk
  | missing hs hm =>
    rw [answer_of_result (conversion?_of_subject? hs) (open?_of_some hm rfl), hs]
    rfl
  | @data _ convert? i v r ht hm hv =>
    have hs : op.subject? = none ∨ v ≠ .null := by
      by_contra hx
      obtain ⟨hn, rfl⟩ : op.subject? ≠ none ∧ v = .null := by simpa using hx
      obtain ⟨p, hp⟩ := Option.ne_none_iff_exists'.1 hn
      rw [conversion?_of_subject? hp] at ht
      cases ht
      rw [ResultType.convert?_document_null] at hv
      cases hv
    rw [answer_of_data ht hm hs]
    exact Result.ofData_eq_ok_iff.2 hv
  | @misfit _ convert? i v ht hm hs hv =>
    rw [answer_of_data ht hm hs]
    exact Result.ofData_of_none hv

/-- **Every reply says something to every operation.** -/
theorem exists_saying (op : Operation) (id : String) (reply : Reply) : ∃ a, Says id reply op a := by
  cases hm : reply.message? with
  | none => exact ⟨_, .unread hm⟩
  | some m =>
    by_cases he : m.isError = true
    · obtain ⟨i, text, rfl⟩ : ∃ i text, m = .error i text := by
        cases m <;> first | exact ⟨_, _, rfl⟩ | cases he
      exact ⟨_, .failed hm⟩
    have he : m.isError = false := by simpa using he
    cases ht : op.conversion? with
    | some convert? =>
      by_cases hr : ∃ i v, m = .result i v
      · obtain ⟨i, v, rfl⟩ := hr
        cases hv : convert? v with
        | some r => exact ⟨_, .data ht hm hv⟩
        | none =>
          by_cases hs : op.subject? = none ∨ v ≠ .null
          · exact ⟨_, .misfit ht hm hs hv⟩
          · obtain ⟨hn, rfl⟩ : op.subject? ≠ none ∧ v = .null := by simpa using hs
            obtain ⟨p, hp⟩ := Option.ne_none_iff_exists'.1 hn
            exact ⟨_, .missing hp hm⟩
      · exact ⟨_, .noResult ht hm he fun i v h => hr ⟨i, v, h⟩⟩
    | none =>
      cases op with
      | ping =>
        by_cases hp : ∃ i, m = .pong i
        · obtain ⟨i, rfl⟩ := hp
          exact ⟨_, .pong hm⟩
        · exact ⟨_, .noPong hm he fun i h => hp ⟨i, h⟩⟩
      | subscribe text fails => exact ⟨_, .opened hm he⟩
      | _ => cases ht

theorem says_answer (op : Operation) (id : String) (reply : Reply) :
    Says id reply op (op.answer id reply) := by
  obtain ⟨a, ha⟩ := exists_saying op id reply
  exact ha.answer_eq.symm ▸ ha

/-- What an operation makes of a reply. It fails with the text of an error exactly if the reply is
that error. A ping succeeds exactly on a pong, an operation that asks for data on a result whose
data it can read, and a subscription is opened by any message that is no error. No document is found
exactly if the operation is about one and the data is null, that is, spelled as null or missing. Any
other reply is not understood. -/
structure Understands (op : Operation) (id : String) (reply : Reply) : Prop where
  serverError : ∀ {text}, op.answer id reply = .error (.serverError text) ↔
    ∃ i, reply.message? = some (.error i text)
  pong : op = .ping → ∀ {r}, op.answer id reply = .ok r ↔
    r = .pong ∧ ∃ i, reply.message? = some (.pong i)
  data : ∀ {convert?}, op.conversion? = some convert? → ∀ {r}, op.answer id reply = .ok r ↔
    ∃ i v, reply.message? = some (.result i v) ∧ convert? v = some r
  types : ∀ {t : ResultType} {v r}, t.convert? v = some r ↔ t.Holds v r
  notFound : ∀ {what}, op.answer id reply = .error (.notFound what) ↔
    ∃ collection documentId i, op.subject? = some (collection, documentId) ∧
      what = "document " ++ documentId ++ " in collection " ++ collection ∧
      reply.message? = some (.result i .null)
  null : ∀ {i}, reply.message? = some (.result i .null) ↔
    ∃ data, reply.IsResult i data ∧ ∀ node, data = some node →
      node.value? reply.encoding.reading.inMemory.deeper.room = some .null
  subscription : op.isSubscribe = true → ∀ {r}, op.answer id reply = .ok r ↔
    r = .subscription id ∧ ∃ m, reply.message? = some m ∧ m.isError = false
  others : ∀ {e}, op.answer id reply = .error e → (∀ text, e ≠ .serverError text) →
    (∀ what, e ≠ .notFound what) → ∃ fault, e = .decodeFailed fault

/-- **The interpretation of replies is complete and exclusive.** -/
theorem understands (op : Operation) (id : String) (reply : Reply) : op.Understands id reply where
  serverError {text} := by
    refine ⟨fun ha => ?_, fun ⟨i, hm⟩ => Says.answer_eq (.failed hm)⟩
    have hs := says_answer op id reply
    rw [ha] at hs
    cases hs with
    | failed hm => exact ⟨_, hm⟩
  pong hp {r} := by
    subst hp
    refine ⟨fun ha => ?_, fun ⟨hr, i, hm⟩ => hr ▸ Says.answer_eq (.pong hm)⟩
    have hs := says_answer .ping id reply
    rw [ha] at hs
    cases hs with
    | pong hm => exact ⟨rfl, _, hm⟩
    | data ht => cases ht
  data {convert?} ht {r} := by
    refine ⟨fun ha => ?_, fun ⟨i, v, hm, hv⟩ => Says.answer_eq (.data ht hm hv)⟩
    have hs := says_answer op id reply
    rw [ha] at hs
    cases hs with
    | pong => cases ht
    | opened => cases ht
    | data ht' hm hv =>
      rw [ht] at ht'
      cases ht'
      exact ⟨_, _, hm, hv⟩
  types := ResultType.convert?_eq_some_iff
  notFound {what} := by
    refine ⟨fun ha => ?_, fun ⟨collection, documentId, i, hs, hw, hm⟩ =>
      hw ▸ Says.answer_eq (.missing hs hm)⟩
    have hs := says_answer op id reply
    rw [ha] at hs
    cases hs with
    | missing hs hm => exact ⟨_, _, _, hs, rfl, hm⟩
  null := reply.message?_eq_null_iff
  subscription ho {r} := by
    obtain ⟨text, fails, rfl⟩ := isSubscribe_iff.1 ho
    refine ⟨fun ha => ?_, fun ⟨hr, m, hm, he⟩ => hr ▸ Says.answer_eq (.opened hm he)⟩
    have hs := says_answer (.subscribe text fails) id reply
    rw [ha] at hs
    cases hs with
    | opened hm he => exact ⟨rfl, _, hm, he⟩
    | data ht => cases ht
  others {e} ha hn hf := by
    have hs := says_answer op id reply
    rw [ha] at hs
    cases hs with
    | unread | noPong | noResult | misfit => exact ⟨_, rfl⟩
    | failed => exact absurd rfl (hn _)
    | missing => exact absurd rfl (hf _)

/-- **A document that comes as the data of a result is found.** -/
theorem answer_of_carried {encoding : Encoding} {payload : List UInt8} {d : Document}
    (h : d.Carried encoding i payload) (ht : op.conversion? = some ResultType.document) :
    op.answer id ⟨encoding, payload⟩ = .ok (.document d) := by
  obtain ⟨w, hw, hm⟩ := h.exists_message
  exact Says.answer_eq (.data ht hm (ResultType.convert?_eq_some_iff.2 (.document hw.isIn)))

end Operation

end DocWire
