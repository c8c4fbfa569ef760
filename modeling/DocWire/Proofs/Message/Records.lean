import Mathlib.Data.List.Basic
import DocWire.Message.Reading
import DocWire.Proofs.Value.Parts

/-! # Records are read back

A record is spelled as a map of its fields in their order (`Node.record`), with its kind in front
under `type` if it has one. Reading puts every field into its place (`Reading.fields?_record`) and
finds the kind (`Reading.read_tagged`), so every message, change and document is read back off the
tree that spells it, wherever there is room for it. -/

namespace DocWire

/-- The tree of a record with the given names and fields. -/
def Node.record (names : List String) (nodes : List Node) : Node :=
  .map ((names.map .text).zip nodes)

namespace Reading

variable {α : Type} {r : Reading} {names kinds : List String} {nodes : List Node} {kind : String}
  {i : Nat}

/-- Behind the fields that have been placed, the others find their places in order. -/
theorem placeEntries?_record {before after : List String} {placed nodes : List Node}
    (hn : (before ++ after).Nodup) (hb : placed.length = before.length)
    (ha : nodes.length = after.length) :
    r.placeEntries? (before ++ after) ((after.map .text).zip nodes)
      (placed.map some ++ List.replicate after.length none) =
        some (placed.map some ++ nodes.map some) := by
  induction after generalizing before placed nodes with
  | nil =>
    have hz : nodes = [] := by simpa using ha
    simp [hz, placeEntries?]
  | cons name after ih =>
    obtain ⟨n, nodes, rfl⟩ := List.exists_cons_of_length_pos (l := nodes) (by simp [ha])
    have hx : name ∉ before := fun h =>
      (List.nodup_append.1 hn).2.2 name h name (by simp) rfl
    have hi : (before ++ name :: after).idxOf? name = some placed.length := by
      rw [List.idxOf?_eq_some_iff]
      refine ⟨by simp [hb], by simp [hb], fun j hj he => hx ?_⟩
      rw [List.getElem_append_left (by omega)] at he
      exact he ▸ List.getElem_mem _
    have hp : (placed.map some ++ List.replicate (name :: after).length none)[placed.length]? =
        some none := by
      simp [List.replicate_succ]
    have hs : (placed.map some ++ List.replicate (name :: after).length none).set placed.length
        (some n) = (placed ++ [n]).map some ++ List.replicate after.length none := by
      simp [List.replicate_succ]
    have hr := @ih (before ++ [name]) (placed ++ [n]) nodes (by simpa using hn) (by simp [hb])
      (by simpa using ha)
    rw [List.map_cons, List.zip_cons_cons, placeEntries?, nameIndex?, hi]
    dsimp only
    rw [hp]
    dsimp only
    rw [hs]
    simpa using hr

/-- **The fields of a record are read back in their order.** -/
theorem fields?_record (hn : names.Nodup) (hl : nodes.length = names.length) :
    r.fields? names (.record names nodes) = some (nodes.map some) := by
  have h := @placeEntries?_record r [] names [] nodes hn rfl hl
  simpa [Node.record, fields?] using h

/-- The kind of a record and its other fields are told apart. -/
theorem kindAndRest?_record (ht : "type" ∉ names) (hi : kinds.idxOf? kind = some i)
    (hh : (Node.record ("type" :: names) (.text kind :: nodes)).holds r.room = true) :
    r.kindAndRest? kinds (.record ("type" :: names) (.text kind :: nodes)) =
      some (i, .record names nodes) := by
  have hf : ∀ e ∈ (names.map Node.text).zip nodes, isKindKey e.1 = false := by
    intro e he
    obtain ⟨name, hm, hx⟩ := List.mem_map.1 (List.of_mem_zip he).1
    have : name ≠ "type" := fun h => ht (h ▸ hm)
    simpa [← hx, isKindKey] using this
  have hp : ((("type" :: names).map Node.text).zip (.text kind :: nodes)).partition
      (fun e => isKindKey e.1) =
        ([(.text "type", .text kind)], (names.map Node.text).zip nodes) := by
    have ha : ((names.map Node.text).zip nodes).filter (fun e => isKindKey e.1) = [] := by
      rw [List.filter_eq_nil_iff]
      intro e he
      simp [hf e he]
    have hb : ((names.map Node.text).zip nodes).filter (not ∘ fun e => isKindKey e.1) =
        (names.map Node.text).zip nodes := by
      rw [List.filter_eq_self]
      intro e he
      simp [hf e he]
    rw [List.partition_eq_filter_filter, List.map_cons, List.zip_cons_cons, List.filter_cons,
      List.filter_cons, ha, hb]
    rfl
  unfold kindAndRest?
  rw [if_pos hh]
  unfold Node.record
  dsimp only
  rw [hp]
  simp [nameIndex?, hi]

/-- **A record with a kind** is read as what its fields make of that kind. -/
theorem read_tagged (names : Nat → List String) (make : Nat → List (Option Node) → Option α)
    (i : Nat) (kind : String) (nodes : List Node) (hi : kinds.idxOf? kind = some i)
    (hn : ("type" :: names i).Nodup) (hl : nodes.length = (names i).length)
    (hh : (Node.record ("type" :: names i) (.text kind :: nodes)).holds r.room = true) :
    (do
      let (kind, rest) ← r.kindAndRest? kinds (.record ("type" :: names i) (.text kind :: nodes))
      let fields ← r.inMemory.fields? (names kind) rest
      make kind fields) = make i (nodes.map some) := by
  obtain ⟨ht, hn⟩ := List.nodup_cons.1 hn
  rw [kindAndRest?_record ht hi hh]
  simp [fields?_record hn hl]

end Reading

/-! ### The free-form data of records -/

/-- The free-form data of a change. -/
def ChangeEvent.data (e : ChangeEvent) : List Value :=
  e.old?.toList ++ (e.document?.map (·.data)).toList

/-- The free-form data of a message of the client. -/
def ClientMessage.data : ClientMessage → List Value
  | insert _ _ data | update _ _ _ data => [data]
  | _ => []

/-- The free-form data of a message of the peer. -/
def ServerMessage.data : ServerMessage → List Value
  | result _ data => [data]
  | change _ event => event.data
  | _ => []

theorem Value.depth_of_mem {fields : List (String × Value)} {f : String × Value} {room : Nat}
    (hd : (Value.object fields).depth ≤ room) (hf : f ∈ fields) : f.2.depth ≤ room - 1 := by
  obtain ⟨n, rfl, hn⟩ := Value.depth_object_le.1 hd
  exact hn f hf

/-- Nothing but the data of a document is a number. -/
theorem Document.bounded_toValue (d : Document) (h : d.data.Bounded) : d.toValue.Bounded := by
  simp [toValue, Value.bounded_object, Value.bounded_text, h]

theorem ChangeEvent.bounded_toValue (e : ChangeEvent) (h : ∀ v ∈ e.data, v.Bounded) :
    e.toValue.Bounded := by
  have hd : ∀ d, e.document? = some d → d.toValue.Bounded := fun d he =>
    d.bounded_toValue (h d.data (by simp [data, he]))
  have ho : ∀ v, e.old? = some v → v.Bounded := fun v he => h v (by simp [data, he])
  cases e with
  | initial d | insert d =>
    simp [toValue, Value.bounded_object, Value.bounded_text, hd d rfl]
  | update old d =>
    simp [toValue, Value.bounded_object, Value.bounded_text, hd d rfl, ho old rfl]
  | delete old => simp [toValue, Value.bounded_object, Value.bounded_text, ho old rfl]

theorem ClientMessage.bounded_toValue (m : ClientMessage) (h : ∀ v ∈ m.data, v.Bounded) :
    m.toValue.Bounded := by
  cases m <;> simp_all [toValue, data, Value.bounded_object, Value.bounded_text]

theorem ServerMessage.bounded_toValue (m : ServerMessage) (h : ∀ v ∈ m.data, v.Bounded) :
    m.toValue.Bounded := by
  have he : ∀ id e, m = change id e → e.toValue.Bounded := fun id e hm =>
    e.bounded_toValue (by subst hm; exact h)
  cases m with
  | result id v => simp_all [toValue, data, Value.bounded_object, Value.bounded_text]
  | change id e =>
    simp [toValue, Value.bounded_object, Value.bounded_text, he id e rfl]
  | _ => simp [toValue, Value.bounded_object, Value.bounded_text]

/-! ### Reading records back -/

variable {r : Reading}

/-- **A document is read back.** -/
theorem Document.read?_toNode (d : Document) (hp : d.data.Proper) (hd : d.toValue.depth ≤ r.room) :
    read? r d.toValue.toNode = some d := by
  have hn : d.toValue.toNode = .record fieldNames
      [.text d.id, .text d.collection, d.data.toNode, .text d.createdAt, .text d.updatedAt] := rfl
  have hx : d.data.depth ≤ r.room - 1 :=
    Value.depth_of_mem (f := ("data", d.data)) hd (by simp)
  have hv := d.data.value?_toNode hp hx
  unfold read?
  rw [hn, Reading.fields?_record (by decide) rfl]
  simp [requiredText?, textOrEmpty?, valueOrNull?, Node.text?, Reading.deeper, hv]

/-- **A change is read back.** -/
theorem ChangeEvent.read?_toNode (e : ChangeEvent) (hp : ∀ v ∈ e.data, v.Proper)
    (hd : e.toValue.depth ≤ r.room) : read? r e.toValue.toNode = some e := by
  have hh := e.toValue.holds_toNode hd
  have hdoc : ∀ d : Document, d.data ∈ e.data → d.toValue.depth ≤ r.room - 1 →
      Document.read? r.inMemory.deeper d.toValue.toNode = some d := fun d hm hx =>
    d.read?_toNode (hp _ hm) hx
  have hold : ∀ v ∈ e.data, v.depth ≤ r.room - 1 →
      v.toNode.value? r.inMemory.deeper.room = some v := fun v hm hx =>
    v.value?_toNode (hp _ hm) hx
  unfold read?
  cases e with
  | initial d =>
    refine (Reading.read_tagged fieldNames _ 0 "initial" [d.toValue.toNode] rfl (by decide) rfl
      hh).trans ?_
    have hx := Value.depth_of_mem (f := ("document", d.toValue)) hd (by simp)
    simp [ofFields?, hdoc d (by simp [data, document?, old?]) hx]
  | insert d =>
    refine (Reading.read_tagged fieldNames _ 1 "insert" [d.toValue.toNode] rfl (by decide) rfl
      hh).trans ?_
    have hx := Value.depth_of_mem (f := ("new", d.toValue)) hd (by simp)
    simp [ofFields?, hdoc d (by simp [data, document?, old?]) hx]
  | update old d =>
    refine (Reading.read_tagged fieldNames _ 2 "update" [old.toNode, d.toValue.toNode] rfl
      (by decide) rfl hh).trans ?_
    have hx := Value.depth_of_mem (f := ("new", d.toValue)) hd (by simp)
    have hy := Value.depth_of_mem (f := ("old", old)) hd (by simp)
    simp [ofFields?, valueOrNull?, hdoc d (by simp [data, document?, old?]) hx,
      hold old (by simp [data, document?, old?]) hy]
  | delete old =>
    refine (Reading.read_tagged fieldNames _ 3 "delete" [old.toNode] rfl (by decide) rfl
      hh).trans ?_
    have hy := Value.depth_of_mem (f := ("old", old)) hd (by simp)
    simp [ofFields?, valueOrNull?, hold old (by simp [data, document?, old?]) hy]

/-- **A message of the client is read back.** -/
theorem ClientMessage.read?_toNode (m : ClientMessage) (hp : ∀ v ∈ m.data, v.Proper)
    (hd : m.toValue.depth ≤ r.room) : read? r m.toValue.toNode = some m := by
  have hh := m.toValue.holds_toNode hd
  have hdata : ∀ v ∈ m.data, v.depth ≤ r.room - 1 →
      v.toNode.value? r.inMemory.deeper.room = some v := fun v hm hx =>
    v.value?_toNode (hp _ hm) hx
  unfold read?
  cases m with
  | ping id =>
    exact Reading.read_tagged fieldNames _ 0 "ping" [.text id] rfl (by decide) rfl hh
  | query id text =>
    exact Reading.read_tagged fieldNames _ 1 "query" [.text id, .text text] rfl (by decide) rfl hh
  | insert id collection data =>
    refine (Reading.read_tagged fieldNames _ 2 "insert"
      [.text id, .text collection, data.toNode] rfl (by decide) rfl hh).trans ?_
    have hx := Value.depth_of_mem (f := ("data", data)) hd (by simp)
    simp [ofFields?, requiredText?, requiredValue?, Node.text?,
      hdata data (by simp [ClientMessage.data]) hx]
  | update id collection documentId data =>
    refine (Reading.read_tagged fieldNames _ 3 "update"
      [.text id, .text collection, .text documentId, data.toNode] rfl (by decide) rfl hh).trans ?_
    have hx := Value.depth_of_mem (f := ("data", data)) hd (by simp)
    simp [ofFields?, requiredText?, requiredValue?, Node.text?,
      hdata data (by simp [ClientMessage.data]) hx]
  | delete id collection documentId =>
    exact Reading.read_tagged fieldNames _ 4 "delete"
      [.text id, .text collection, .text documentId] rfl (by decide) rfl hh
  | listCollections id =>
    exact Reading.read_tagged fieldNames _ 5 "listcollections" [.text id] rfl (by decide) rfl hh
  | subscribe id text =>
    exact Reading.read_tagged fieldNames _ 6 "subscribe" [.text id, .text text] rfl (by decide) rfl
      hh
  | unsubscribe id =>
    exact Reading.read_tagged fieldNames _ 7 "unsubscribe" [.text id] rfl (by decide) rfl hh

/-- **A message of the peer is read back.** -/
theorem ServerMessage.read?_toNode (m : ServerMessage) (hp : ∀ v ∈ m.data, v.Proper)
    (hd : m.toValue.depth ≤ r.room) : read? r m.toValue.toNode = some m := by
  have hh := m.toValue.holds_toNode hd
  unfold read?
  cases m with
  | pong id =>
    exact Reading.read_tagged fieldNames _ 0 "pong" [.text id] rfl (by decide) rfl hh
  | result id data =>
    refine (Reading.read_tagged fieldNames _ 1 "result" [.text id, data.toNode] rfl (by decide) rfl
      hh).trans ?_
    have hx := Value.depth_of_mem (f := ("data", data)) hd (by simp)
    have hv : data.toNode.value? r.inMemory.deeper.room = some data :=
      data.value?_toNode (hp data (by simp [ServerMessage.data])) hx
    simp [ofFields?, requiredText?, valueOrNull?, Node.text?, hv]
  | error id text =>
    exact Reading.read_tagged fieldNames _ 2 "error" [.text id, .text text] rfl (by decide) rfl hh
  | subscribed id =>
    exact Reading.read_tagged fieldNames _ 3 "subscribed" [.text id] rfl (by decide) rfl hh
  | unsubscribed id =>
    exact Reading.read_tagged fieldNames _ 4 "unsubscribed" [.text id] rfl (by decide) rfl hh
  | change id event =>
    refine (Reading.read_tagged fieldNames _ 5 "change" [.text id, event.toValue.toNode] rfl
      (by decide) rfl hh).trans ?_
    have hx := Value.depth_of_mem (f := ("change", event.toValue)) hd (by simp)
    have he : ChangeEvent.read? r.inMemory.deeper event.toValue.toNode = some event :=
      event.read?_toNode hp hx
    simp [ofFields?, requiredText?, Node.text?, he]

end DocWire
