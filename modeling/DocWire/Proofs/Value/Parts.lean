import Mathlib.Data.String.Basic
import DocWire.Node

/-! # Free-form data and its parts

What is asked of free-form data is asked of every part of it: `all p v` says that the value `v` and
all values inside it pass the test `p`, and `depth` counts how deep arrays and objects are nested.
`Proper` values are those that the data model knows: integers of 64 bits, doubles that are numbers,
and objects with their keys in order, each once.

The tree that spells a proper value reads as that value again, wherever there is room for it
(`value?_toNode`). -/

namespace DocWire

namespace Value

variable {p q : Value → Bool} {v : Value} {items : List Value} {fields : List (String × Value)}
  {room n : Nat}

mutual

/-- Whether a value and all values inside it pass a test. -/
def all (p : Value → Bool) : Value → Bool
  | .array items => p (.array items) && allItems p items
  | .object fields => p (.object fields) && allFields p fields
  | v => p v

/-- Whether all items, and all values inside them, pass a test. -/
def allItems (p : Value → Bool) : List Value → Bool
  | [] => true
  | v :: vs => v.all p && allItems p vs

/-- Whether the values of all fields, and all values inside them, pass a test. -/
def allFields (p : Value → Bool) : List (String × Value) → Bool
  | [] => true
  | (_, v) :: fields => v.all p && allFields p fields

end

mutual

/-- How deep arrays and objects are nested. -/
def depth : Value → Nat
  | .array items => depthItems items + 1
  | .object fields => depthFields fields + 1
  | _ => 0

/-- The depth of the deepest item. -/
def depthItems : List Value → Nat
  | [] => 0
  | v :: vs => max v.depth (depthItems vs)

/-- The depth of the deepest field. -/
def depthFields : List (String × Value) → Nat
  | [] => 0
  | (_, v) :: fields => max v.depth (depthFields fields)

end

/-- Whether the value itself, its parts apart, is one of the data model. -/
def isProper : Value → Bool
  | .int n => -0x8000000000000000 ≤ n && n < 0x10000000000000000
  | .double x => x.isFinite
  | .object fields => fields.Pairwise fun a b => a.1 < b.1
  | _ => true

/-- Whether the value itself, if it is an integer, has 64 bits. -/
def isBounded : Value → Bool
  | .int n => -0x8000000000000000 ≤ n && n < 0x10000000000000000
  | _ => true

/-- Whether the size of the value itself, its parts apart, fits 32 bits. -/
def isShort : Value → Bool
  | .text s => (Text.toBytes s).length < 0x100000000
  | .array items => items.length < 0x100000000
  | .object fields =>
    fields.length < 0x100000000 && fields.all fun f => (Text.toBytes f.1).length < 0x100000000
  | _ => true

/-- Whether the value itself is no double. -/
def isExact : Value → Bool
  | .double _ => false
  | _ => true

/-- Free-form data of the data model. -/
def Proper (v : Value) : Prop := v.all isProper = true

/-- Free-form data in which every integer has 64 bits. -/
def Bounded (v : Value) : Prop := v.all isBounded = true

/-- Free-form data in which the size of every text, array and object fits 32 bits. -/
def Short (v : Value) : Prop := v.all isShort = true

/-- Free-form data without doubles. -/
def Exact (v : Value) : Prop := v.all isExact = true

instance : DecidablePred Proper := fun v => inferInstanceAs (Decidable (v.all isProper = true))
instance : DecidablePred Short := fun v => inferInstanceAs (Decidable (v.all isShort = true))
instance : DecidablePred Exact := fun v => inferInstanceAs (Decidable (v.all isExact = true))

/-! ### Going through a value -/

/-- Induction on a value, with a hypothesis for every part. -/
@[elab_as_elim]
theorem induct {motive : Value → Prop} (null : motive .null) (bool : ∀ b, motive (.bool b))
    (int : ∀ n, motive (.int n)) (double : ∀ x, motive (.double x))
    (text : ∀ s, motive (.text s))
    (array : ∀ items, (∀ v ∈ items, motive v) → motive (.array items))
    (object : ∀ fields, (∀ f ∈ fields, motive f.2) → motive (.object fields)) (v : Value) :
    motive v :=
  @Value.rec motive (fun items => ∀ v ∈ items, motive v) (fun fields => ∀ f ∈ fields, motive f.2)
    (fun f => motive f.2) null bool int double text array object nofun
    (fun _ _ hv hs _ hm => (List.mem_cons.1 hm).elim (fun h => h ▸ hv) (hs _)) nofun
    (fun _ _ hf hs _ hm => (List.mem_cons.1 hm).elim (fun h => h ▸ hf) (hs _)) (fun _ _ h => h) v

theorem allItems_iff : allItems p items = true ↔ ∀ v ∈ items, v.all p = true := by
  induction items with
  | nil => simp [allItems]
  | cons v vs ih => simp [allItems, ih]

theorem allFields_iff : allFields p fields = true ↔ ∀ f ∈ fields, f.2.all p = true := by
  induction fields with
  | nil => simp [allFields]
  | cons f fields ih =>
    obtain ⟨key, v⟩ := f
    simp [allFields, ih]

theorem all_array :
    (array items).all p = true ↔ p (array items) = true ∧ ∀ v ∈ items, v.all p = true := by
  rw [all, Bool.and_eq_true, allItems_iff]

theorem all_object :
    (object fields).all p = true ↔ p (object fields) = true ∧ ∀ f ∈ fields, f.2.all p = true := by
  rw [all, Bool.and_eq_true, allFields_iff]

theorem all_mono (h : ∀ v, p v = true → q v = true) (hp : v.all p = true) : v.all q = true := by
  induction v using induct with
  | null | bool | int | double | text => exact h _ hp
  | array items ih =>
    obtain ⟨hv, hi⟩ := all_array.1 hp
    exact all_array.2 ⟨h _ hv, fun v hm => ih v hm (hi v hm)⟩
  | object fields ih =>
    obtain ⟨hv, hi⟩ := all_object.1 hp
    exact all_object.2 ⟨h _ hv, fun f hm => ih f hm (hi f hm)⟩

theorem Proper.bounded (h : v.Proper) : v.Bounded :=
  all_mono (fun v hv => by cases v <;> first | rfl | exact hv) h

theorem bounded_object : (object fields).Bounded ↔ ∀ f ∈ fields, f.2.Bounded := by
  simp only [Bounded, all_object, isBounded, true_and]

theorem bounded_text (s : String) : (text s).Bounded := rfl

theorem depthItems_le : depthItems items ≤ n ↔ ∀ v ∈ items, v.depth ≤ n := by
  induction items with
  | nil => simp [depthItems]
  | cons v vs ih => simp [depthItems, ih]

theorem depthFields_le : depthFields fields ≤ n ↔ ∀ f ∈ fields, f.2.depth ≤ n := by
  induction fields with
  | nil => simp [depthFields]
  | cons f fields ih =>
    obtain ⟨key, v⟩ := f
    simp [depthFields, ih]

theorem depth_array_le :
    (array items).depth ≤ room ↔ ∃ n, room = n + 1 ∧ ∀ v ∈ items, v.depth ≤ n := by
  rw [depth]
  constructor
  · intro h
    exact ⟨room - 1, by omega, depthItems_le.1 (by omega)⟩
  · rintro ⟨n, rfl, h⟩
    have := depthItems_le.2 h
    omega

theorem depth_object_le :
    (object fields).depth ≤ room ↔ ∃ n, room = n + 1 ∧ ∀ f ∈ fields, f.2.depth ≤ n := by
  rw [depth]
  constructor
  · intro h
    exact ⟨room - 1, by omega, depthFields_le.1 (by omega)⟩
  · rintro ⟨n, rfl, h⟩
    have := depthFields_le.2 h
    omega

/-! ### Spelling a value -/

theorem toNodes_eq (items : List Value) : toNodes items = items.map toNode := by
  induction items with
  | nil => rfl
  | cons v vs ih => simp [toNodes, ih]

theorem toEntries_eq (fields : List (String × Value)) :
    toEntries fields = fields.map fun f => (.text f.1, f.2.toNode) := by
  induction fields with
  | nil => rfl
  | cons f fields ih =>
    obtain ⟨key, v⟩ := f
    simp [toEntries, ih]

theorem toNode_array (items : List Value) : (array items).toNode = .seq (items.map toNode) := by
  rw [toNode, toNodes_eq]

theorem toNode_object (fields : List (String × Value)) :
    (object fields).toNode = .map (fields.map fun f => (.text f.1, f.2.toNode)) := by
  rw [toNode, toEntries_eq]

/-! ### Objects in order -/

theorem insertField_of_lt {key : String} (h : ∀ f ∈ fields, f.1 < key) :
    insertField key v fields = fields ++ [(key, v)] := by
  induction fields with
  | nil => rfl
  | cons f fields ih =>
    obtain ⟨k, w⟩ := f
    have hk : k < key := h (k, w) (by simp)
    rw [insertField, if_neg hk.asymm, if_neg hk.ne', ih fun f hf => h f (by simp [hf])]
    rfl

/-- **Fields in order stay as they are.** -/
theorem sortFields_of_sorted (h : fields.Pairwise fun a b => a.1 < b.1) :
    sortFields fields = fields := by
  have hx : ∀ (fields sorted : List (String × Value)),
      (sorted ++ fields).Pairwise (fun a b => a.1 < b.1) →
      fields.foldl (fun sorted f => insertField f.1 f.2 sorted) sorted = sorted ++ fields := by
    intro fields
    induction fields with
    | nil => simp
    | cons f fields ih =>
      intro sorted hs
      obtain ⟨key, v⟩ := f
      have hl : ∀ g ∈ sorted, g.1 < key := fun g hg =>
        (List.pairwise_append.1 hs).2.2 g hg (key, v) (by simp)
      rw [List.foldl_cons]
      dsimp only
      rw [insertField_of_lt hl, ih _ (by simpa using hs), List.append_assoc]
      rfl
  exact hx fields [] h

/-! ### Reading a value back -/

theorem mapM_map_some {α β γ : Type} {f : β → Option γ} {g : α → β} {k : α → γ} {l : List α}
    (h : ∀ a ∈ l, f (g a) = some (k a)) : (l.map g).mapM f = some (l.map k) := by
  induction l with
  | nil => rfl
  | cons a l ih =>
    rw [List.map_cons, List.mapM_cons, h a (by simp), ih fun b hb => h b (by simp [hb])]
    rfl

/-- The tree of a value can be taken into memory where there is room for it. -/
theorem holds_toNode (v : Value) (hd : v.depth ≤ room) : v.toNode.holds room = true := by
  induction v using induct generalizing room with
  | null | bool | int | double | text => cases room <;> rfl
  | array items ih =>
    obtain ⟨n, rfl, hn⟩ := depth_array_le.1 hd
    rw [toNode_array, Node.holds, List.all_map, List.all_eq_true]
    exact fun v hv => ih v hv (hn v hv)
  | object fields ih =>
    obtain ⟨n, rfl, hn⟩ := depth_object_le.1 hd
    rw [toNode_object, Node.holds, List.all_map, List.all_eq_true]
    intro f hf
    have ht : (Node.text f.1).holds n = true := by cases n <;> rfl
    have hv := ih f hf (hn f hf)
    simp [ht, hv]

/-- **A proper value is read back off the tree that spells it.** -/
theorem value?_toNode (v : Value) (hp : v.Proper) (hd : v.depth ≤ room) :
    v.toNode.value? room = some v := by
  induction v using induct generalizing room with
  | null | bool | int | text => cases room <;> rfl
  | double x =>
    have hx : x.isFinite = true := hp
    cases room <;> simp [toNode, Node.value?, hx]
  | array items ih =>
    obtain ⟨n, rfl, hn⟩ := depth_array_le.1 hd
    obtain ⟨-, hp⟩ := all_array.1 hp
    have hm : (items.map toNode).mapM (Node.value? n) = some (items.map id) :=
      mapM_map_some fun v hv => ih v hv (hp v hv) (hn v hv)
    rw [toNode_array, Node.value?, hm, List.map_id]
    rfl
  | object fields ih =>
    obtain ⟨n, rfl, hn⟩ := depth_object_le.1 hd
    obtain ⟨hs, hp⟩ := all_object.1 hp
    have ho : Node.opensObject (fields.map fun f => (Node.text f.1, f.2.toNode)) = true := by
      cases fields <;> rfl
    rw [toNode_object, Node.value?, if_pos ho, mapM_map_some (k := id)]
    · rw [List.map_id, Option.map_some, sortFields_of_sorted (by simpa [isProper] using hs)]
    · intro f hf
      simp [Node.text?, ih f hf (hp f hf) (hn f hf)]

end Value

end DocWire
