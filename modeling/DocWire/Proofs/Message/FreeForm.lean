import DocWire.Proofs.Entries
import DocWire.Proofs.Message.RoundTrip

/-! # Records as free-form data

Whoever reads a payload without knowing its type finds an object: the kind of the record under
`type`, and under the name of every field what was written there (`Value.IsRecord`). What such a
reader finds does not depend on the encoding (`Content.encodings_agree`); in particular no encoding
spells a record as the array of its fields.

An object that has been read has its keys in order, while a record is written in the order of its
declaration. So the object is not the one that was written, but has the same fields. -/

namespace DocWire

namespace Value

variable {names : List String} {parts : List Value} {fields : List (String × Value)} {v w : Value}

/-- An object with the given keys and no others, each once, and with the given parts under them. -/
def IsRecord (names : List String) (parts : List Value) (v : Value) : Prop :=
  ∃ fields, v = .object fields ∧ parts.length = names.length ∧ fields.Perm (names.zip parts)

/-! ### Fields in order -/

theorem perm_insertField {key : String} (h : key ∉ fields.map (·.1)) :
    (insertField key v fields).Perm ((key, v) :: fields) := by
  induction fields with
  | nil => exact .refl _
  | cons f fields ih =>
    obtain ⟨k, w⟩ := f
    obtain ⟨hk, hx⟩ : key ≠ k ∧ key ∉ fields.map (·.1) := by simpa using h
    rw [insertField, if_neg hk]
    split
    · exact .refl _
    · exact ((ih hx).cons _).trans (.swap _ _ _)

/-- **Sorting keeps the fields** if no two of them have the same key. -/
theorem perm_sortFields (h : (fields.map (·.1)).Nodup) : (sortFields fields).Perm fields := by
  have hx : ∀ (fields sorted : List (String × Value)),
      ((sorted ++ fields).map (·.1)).Nodup →
      (fields.foldl (fun sorted f => insertField f.1 f.2 sorted) sorted).Perm
        (sorted ++ fields) := by
    intro fields
    induction fields with
    | nil => exact fun sorted _ => by simp
    | cons f fields ih =>
      intro sorted hn
      have hm : ((f :: (sorted ++ fields)).map (·.1)).Nodup :=
        (List.perm_middle.map _).nodup_iff.1 hn
      have hp : (insertField f.1 f.2 sorted).Perm (f :: sorted) := by
        refine perm_insertField fun hf => (List.nodup_cons.1 hm).1 ?_
        rw [List.map_append]
        exact List.mem_append_left _ hf
      have hq : (insertField f.1 f.2 sorted ++ fields).Perm (f :: (sorted ++ fields)) :=
        hp.append_right fields
      exact ((ih _ ((hq.map _).nodup_iff.2 hm)).trans hq).trans List.perm_middle.symm
  exact hx fields [] h

theorem isRecord_sortFields (hn : names.Nodup) (hl : parts.length = names.length) :
    IsRecord names parts (.object (sortFields (names.zip parts))) := by
  refine ⟨_, rfl, hl, perm_sortFields ?_⟩
  rw [List.map_fst_zip (Nat.le_of_eq hl.symm)]
  exact hn

theorem IsRecord.field?_eq_some {key : String} (h : IsRecord names parts v) (hn : names.Nodup)
    (hm : (key, w) ∈ names.zip parts) : v.field? key = some w := by
  obtain ⟨fields, rfl, hl, hp⟩ := h
  have hk : (fields.map (·.1)).Nodup := by
    rw [(hp.map _).nodup_iff, List.map_fst_zip (Nat.le_of_eq hl.symm)]
    exact hn
  exact (Entries.mem_iff_lookup hk).1 (hp.mem_iff.2 hm)

/-! ### Written values as they are read -/

/-- A value that is written reads as a piece of free-form data, wherever there is room for it. -/
def Reads (w v : Value) : Prop := ∀ room, w.depth ≤ room → w.toNode.value? room = some v

theorem reads_self (hp : v.Proper) : v.Reads v := fun _ hd => v.value?_toNode hp hd

theorem reads_text (s : String) : (text s).Reads (text s) := reads_self rfl

/-- Names and items are taken through a function side by side. -/
theorem mapM_zip_some {κ α β δ : Type} {r : α → β → Prop} {f : δ → Option (κ × β)}
    {g : κ × α → δ} {names : List κ} {l : List α} {l' : List β} (h : List.Forall₂ r l l')
    (hf : ∀ name a b, (name, a) ∈ names.zip l → r a b → f (g (name, a)) = some (name, b)) :
    ((names.zip l).map g).mapM f = some (names.zip l') := by
  induction h generalizing names with
  | nil => cases names <;> rfl
  | @cons a b l l' hr _ ih =>
    cases names with
    | nil => rfl
    | cons name names =>
      rw [List.zip_cons_cons, List.map_cons, List.mapM_cons, hf name a b (by simp) hr,
        ih fun name a b hm => hf name a b (List.mem_cons_of_mem _ hm)]
      rfl

/-- **A record reads as the record of what its fields read as.** -/
theorem exists_reads_record {written : List Value} (hn : names.Nodup)
    (hl : parts.length = names.length) (h : List.Forall₂ Reads written parts) :
    ∃ v, v.IsRecord names parts ∧ (object (names.zip written)).Reads v := by
  refine ⟨_, isRecord_sortFields hn hl, fun room hd => ?_⟩
  obtain ⟨n, rfl, hf⟩ := depth_object_le.1 hd
  have ho : Node.opensObject ((names.zip written).map fun f => (.text f.1, f.2.toNode)) = true := by
    cases names.zip written <;> rfl
  rw [toNode_object, Node.value?, if_pos ho, mapM_zip_some h]
  · rfl
  · intro name w v hm hv
    have hw := hv n (hf (name, w) hm)
    simp [Node.text?, hw]

end Value

/-! ### Records as they are shown -/

/-- A document is shown as the object of its fields. -/
def Document.Shown (d : Document) : Value → Prop :=
  Value.IsRecord fieldNames
    [.text d.id, .text d.collection, d.data, .text d.createdAt, .text d.updatedAt]

namespace ChangeEvent

/-- The kind of a change. -/
def kind : ChangeEvent → String
  | initial _ => "initial"
  | insert _ => "insert"
  | update _ _ => "update"
  | delete _ => "delete"

/-- What is shown of a change under the names of its fields. -/
inductive Parts : ChangeEvent → List Value → Prop
  | initial {d : Document} {v : Value} (h : d.Shown v) : Parts (.initial d) [v]
  | insert {d : Document} {v : Value} (h : d.Shown v) : Parts (.insert d) [v]
  | update {d : Document} {v : Value} (old : Value) (h : d.Shown v) : Parts (.update old d) [old, v]
  | delete (old : Value) : Parts (.delete old) [old]

/-- A change is shown as the object of its kind and its fields. -/
def Shown (e : ChangeEvent) (v : Value) : Prop :=
  ∃ parts, e.Parts parts ∧ v.IsRecord ("type" :: fieldNames e.number) (.text e.kind :: parts)

end ChangeEvent

namespace ClientMessage

/-- The number of the kind of a message. -/
def number : ClientMessage → Nat
  | ping _ => 0
  | query _ _ => 1
  | insert _ _ _ => 2
  | update _ _ _ _ => 3
  | delete _ _ _ => 4
  | listCollections _ => 5
  | subscribe _ _ => 6
  | unsubscribe _ => 7

/-- The kind of a message. -/
def kind : ClientMessage → String
  | ping _ => "ping"
  | query _ _ => "query"
  | insert _ _ _ => "insert"
  | update _ _ _ _ => "update"
  | delete _ _ _ => "delete"
  | listCollections _ => "listcollections"
  | subscribe _ _ => "subscribe"
  | unsubscribe _ => "unsubscribe"

/-- What is shown of a message under the names of its fields. -/
def parts : ClientMessage → List Value
  | ping id | listCollections id | unsubscribe id => [.text id]
  | query id text | subscribe id text => [.text id, .text text]
  | insert id collection data => [.text id, .text collection, data]
  | update id collection documentId data => [.text id, .text collection, .text documentId, data]
  | delete id collection documentId => [.text id, .text collection, .text documentId]

/-- A message is shown as the object of its kind and its fields, with its id among them. -/
structure Shown (m : ClientMessage) (v : Value) : Prop where
  record : v.IsRecord ("type" :: fieldNames m.number) (.text m.kind :: m.parts)
  kind : v.field? "type" = some (.text m.kind)
  id : v.field? "id" = some (.text m.id)

end ClientMessage

namespace ServerMessage

/-- The number of the kind of a message. -/
def number : ServerMessage → Nat
  | pong _ => 0
  | result _ _ => 1
  | error _ _ => 2
  | subscribed _ => 3
  | unsubscribed _ => 4
  | change _ _ => 5

/-- What is shown of a message under the names of its fields. -/
inductive Parts : ServerMessage → List Value → Prop
  | pong (id : String) : Parts (.pong id) [.text id]
  | result (id : String) (data : Value) : Parts (.result id data) [.text id, data]
  | error (id text : String) : Parts (.error id text) [.text id, .text text]
  | subscribed (id : String) : Parts (.subscribed id) [.text id]
  | unsubscribed (id : String) : Parts (.unsubscribed id) [.text id]
  | change (id : String) {event : ChangeEvent} {v : Value} (h : event.Shown v) :
      Parts (.change id event) [.text id, v]

/-- A message is shown as the object of its kind and its fields, with its id among them. -/
structure Shown (m : ServerMessage) (v : Value) : Prop where
  record : ∃ parts, m.Parts parts ∧
    v.IsRecord ("type" :: fieldNames m.number) (.text m.kind :: parts)
  kind : v.field? "type" = some (.text m.kind)
  id : v.field? "id" = some (.text m.id)

end ServerMessage

/-- Content as free-form data. -/
def Content.Shown : Content → Value → Prop
  | request m => m.Shown
  | message m => m.Shown
  | change e => e.Shown
  | document d => d.Shown
  | data v => (· = v)

/-! ### Written records are shown -/

theorem Document.exists_shown (d : Document) (hp : d.data.Proper) :
    ∃ v, d.Shown v ∧ d.toValue.Reads v :=
  Value.exists_reads_record (by decide) rfl (List.forall₂_same.2 (by
    simp [hp, Value.reads_text, Value.reads_self]))

theorem ChangeEvent.nodup_fieldNames (k : Nat) : ("type" :: fieldNames k).Nodup := by
  unfold fieldNames
  split <;> decide

theorem ChangeEvent.exists_shown (e : ChangeEvent) (hp : ∀ v ∈ e.data, v.Proper) :
    ∃ v, e.Shown v ∧ e.toValue.Reads v := by
  have hdoc : ∀ d, e.document? = some d → ∃ v, d.Shown v ∧ d.toValue.Reads v := fun d hd =>
    d.exists_shown (hp _ (by simp [data, hd]))
  have hold : ∀ v, e.old? = some v → v.Reads v := fun v hv =>
    Value.reads_self (hp v (by simp [data, hv]))
  obtain ⟨written, parts, he, ht, hr⟩ : ∃ written parts, e.Parts parts ∧
      e.toValue = .object (("type" :: fieldNames e.number).zip (.text e.kind :: written)) ∧
      List.Forall₂ Value.Reads written parts := by
    cases e with
    | initial d =>
      obtain ⟨v, hv, hr⟩ := hdoc d rfl
      exact ⟨_, _, .initial hv, rfl, .cons hr .nil⟩
    | insert d =>
      obtain ⟨v, hv, hr⟩ := hdoc d rfl
      exact ⟨_, _, .insert hv, rfl, .cons hr .nil⟩
    | update old d =>
      obtain ⟨v, hv, hr⟩ := hdoc d rfl
      exact ⟨_, _, .update old hv, rfl, .cons (hold old rfl) (.cons hr .nil)⟩
    | delete old => exact ⟨_, _, .delete old, rfl, .cons (hold old rfl) .nil⟩
  have hn := nodup_fieldNames e.number
  have hl : (.text e.kind :: parts).length = ("type" :: fieldNames e.number).length := by
    cases he <;> rfl
  obtain ⟨v, hv, hx⟩ := Value.exists_reads_record hn hl (.cons (Value.reads_text _) hr)
  exact ⟨v, ⟨parts, he, hv⟩, ht ▸ hx⟩

theorem ClientMessage.nodup_fieldNames (k : Nat) : ("type" :: fieldNames k).Nodup := by
  unfold fieldNames
  split <;> decide

theorem ClientMessage.mem_parts {m : ClientMessage} {v : Value} (h : v ∈ m.parts) :
    v ∈ m.data ∨ ∃ s, v = .text s := by
  cases m <;> simp only [parts, data, List.mem_cons, List.not_mem_nil, or_false] at h ⊢ <;> grind

theorem ClientMessage.exists_shown (m : ClientMessage) (hp : ∀ v ∈ m.data, v.Proper) :
    ∃ v, m.Shown v ∧ m.toValue.Reads v := by
  have hn := nodup_fieldNames m.number
  have hl : (.text m.kind :: m.parts).length = ("type" :: fieldNames m.number).length := by
    cases m <;> rfl
  have ht : m.toValue =
      .object (("type" :: fieldNames m.number).zip (.text m.kind :: m.parts)) := by
    cases m <;> rfl
  have hr : ∀ v ∈ m.parts, v.Reads v := fun v hv => by
    rcases mem_parts hv with hd | ⟨s, rfl⟩
    · exact Value.reads_self (hp v hd)
    · exact Value.reads_text s
  obtain ⟨v, hv, hx⟩ := Value.exists_reads_record hn hl
    (.cons (Value.reads_text _) (List.forall₂_same.2 hr))
  have hi : ("id", .text m.id) ∈
      ("type" :: fieldNames m.number).zip (.text m.kind :: m.parts) := by
    cases m <;> simp [fieldNames, number, parts, id]
  exact ⟨v, ⟨hv, hv.field?_eq_some hn (by simp), hv.field?_eq_some hn hi⟩, ht ▸ hx⟩

theorem ServerMessage.nodup_fieldNames (k : Nat) : ("type" :: fieldNames k).Nodup := by
  unfold fieldNames
  split <;> decide

theorem ServerMessage.exists_shown (m : ServerMessage) (hp : ∀ v ∈ m.data, v.Proper) :
    ∃ v, m.Shown v ∧ m.toValue.Reads v := by
  obtain ⟨written, parts, hm, ht, hr⟩ : ∃ written parts, m.Parts parts ∧
      m.toValue = .object (("type" :: fieldNames m.number).zip (.text m.kind :: written)) ∧
      List.Forall₂ Value.Reads written parts := by
    cases m with
    | pong id => exact ⟨_, _, .pong id, rfl, .cons (Value.reads_text id) .nil⟩
    | result id data =>
      have hd := Value.reads_self (hp data (List.mem_singleton_self _))
      exact ⟨_, _, .result id data, rfl, .cons (Value.reads_text id) (.cons hd .nil)⟩
    | error id text =>
      exact ⟨_, _, .error id text, rfl, .cons (Value.reads_text id)
        (.cons (Value.reads_text text) .nil)⟩
    | subscribed id => exact ⟨_, _, .subscribed id, rfl, .cons (Value.reads_text id) .nil⟩
    | unsubscribed id => exact ⟨_, _, .unsubscribed id, rfl, .cons (Value.reads_text id) .nil⟩
    | change id event =>
      obtain ⟨v, hv, hr⟩ := event.exists_shown hp
      exact ⟨_, _, .change id hv, rfl, .cons (Value.reads_text id) (.cons hr .nil)⟩
  have hn := nodup_fieldNames m.number
  have hl : (.text m.kind :: parts).length = ("type" :: fieldNames m.number).length := by
    cases hm <;> rfl
  obtain ⟨v, hv, hx⟩ := Value.exists_reads_record hn hl (.cons (Value.reads_text _) hr)
  have hi : ("id", .text m.id) ∈ ("type" :: fieldNames m.number).zip (.text m.kind :: parts) := by
    cases hm <;> simp [fieldNames, number, id]
  refine ⟨v, ⟨⟨parts, hm, hv⟩, hv.field?_eq_some hn (by simp), ?_⟩, ht ▸ hx⟩
  exact hv.field?_eq_some hn hi

namespace Content

theorem exists_shown (c : Content) (hp : ∀ v ∈ c.values, v.Proper) :
    ∃ v, c.Shown v ∧ c.toValue.Reads v := by
  cases c with
  | request m => exact m.exists_shown hp
  | message m => exact m.exists_shown hp
  | change e => exact e.exists_shown hp
  | document d => exact d.exists_shown (hp _ (List.mem_singleton_self _))
  | data v => exact ⟨v, rfl, Value.reads_self (hp v (List.mem_singleton_self _))⟩

/-- **Both encodings carry the same record**: read as free-form data it is the same object in either
of them, with the kind and the fields of the record. -/
theorem encodings_agree (c : Content) (hp : ∀ v ∈ c.values, v.Proper) (hx : c.toValue.Exact)
    (hs : c.toValue.Short) (hd : c.toValue.depth < 100) :
    ∃ v, c.Shown v ∧
      ∀ e : Encoding, e.decode Value.read? (e.print c.toValue) = .ok v := by
  obtain ⟨v, hv, hr⟩ := c.exists_shown hp
  have hb : c.toValue.Bounded := bounded_toValue hp
  refine ⟨v, hv, fun e => ?_⟩
  have hparse : e.parse? (e.print c.toValue) = some c.toValue.toNode := by
    cases e with
    | messagePack =>
      have h := MessagePack.parse?_print hb hs (by unfold MessagePack.maxNesting; omega) []
      rwa [List.append_nil] at h
    | json =>
      have h : Json.parse? ([] ++ Json.print c.toValue ++ []) = some (Json.tree c.toValue) :=
        Json.parse?_print hb rfl rfl
      rwa [Json.tree_of_exact hx, List.nil_append, List.append_nil] at h
  have hroom : c.toValue.depth ≤ e.reading.room := by
    cases e
    · simp only [Encoding.reading, MessagePack.maxNesting]; omega
    · simp only [Encoding.reading, Encoding.jsonRoom]; omega
  rw [Encoding.decode, Encoding.decode?, hparse, Option.bind_some, Value.read?, hr _ hroom]

/-- A push of a change in a document, whose fields are not in order. -/
def revised : Content :=
  .message (.change "7" (.update (.object [("n", .int (-1))])
    ⟨"1", "users", .object [("list", .array [.null, .bool true]), ("n", .int 0xffffffffffffffff)],
      "", "\u00fc"⟩))

theorem encodings_agree_revised :
    (∀ v ∈ revised.values, v.Proper) ∧ revised.toValue.Exact ∧ revised.toValue.Short ∧
      revised.toValue.depth < 100 ∧
      ∃ v, revised.Shown v ∧
        ∀ e : Encoding, e.decode Value.read? (e.print revised.toValue) = .ok v := by
  have hp : ∀ v ∈ revised.values, v.Proper := by decide +kernel
  have hx : revised.toValue.Exact := by decide +kernel
  have hs : revised.toValue.Short := by decide +kernel
  have hd : revised.toValue.depth < 100 := by decide +kernel
  exact ⟨hp, hx, hs, hd, encodings_agree revised hp hx hs hd⟩

end Content

end DocWire
