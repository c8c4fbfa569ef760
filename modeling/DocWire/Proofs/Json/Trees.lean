import DocWire.Proofs.Json.Tokens

/-! # Reading a written value

The tokens of a written value are folded into the tree that the text spells (`parse?_print`),
whatever blanks stand around it. For a value without doubles this is the tree of the value itself
(`tree_of_exact`); a double has the tree of its numeral. Behind an object nothing but blanks may
come (`parse?_print_cons`). -/

namespace DocWire.Json

variable {stack : List Level} {found : List Node} {n : Node} {ts : List Token} {v : Value}
  {items : List Value} {fields : List (String × Value)} {before after : List UInt8}

mutual

/-- The tree that the text of a value spells. -/
def tree : Value → Node
  | .array items => .seq (trees items)
  | .object fields => .map (treeEntries fields)
  | .double x => doubleNode x
  | v => v.toNode

/-- The trees that the texts of items spell. -/
def trees : List Value → List Node
  | [] => []
  | v :: vs => tree v :: trees vs

/-- The entries that the texts of fields spell. -/
def treeEntries : List (String × Value) → List (Node × Node)
  | [] => []
  | (key, v) :: fields => (.text key, tree v) :: treeEntries fields

end

theorem trees_eq (items : List Value) : trees items = items.map tree := by
  induction items with
  | nil => rfl
  | cons v vs ih => simp [trees, ih]

theorem treeEntries_eq (fields : List (String × Value)) :
    treeEntries fields = fields.map fun f => (.text f.1, tree f.2) := by
  induction fields with
  | nil => rfl
  | cons f fields ih =>
    obtain ⟨key, v⟩ := f
    simp [treeEntries, ih]

theorem tree_array (items : List Value) : tree (.array items) = .seq (items.map tree) := by
  rw [tree, trees_eq]

theorem tree_object (fields : List (String × Value)) :
    tree (.object fields) = .map (fields.map fun f => (.text f.1, tree f.2)) := by
  rw [tree, treeEntries_eq]

/-- **The text of a value without doubles spells the value.** -/
theorem tree_of_exact (h : v.Exact) : tree v = v.toNode := by
  induction v using Value.induct with
  | null | bool | int | text => rfl
  | double => cases h
  | array items ih =>
    obtain ⟨-, h⟩ := Value.all_array.1 h
    rw [tree_array, Value.toNode_array, List.map_congr_left fun v hv => ih v hv (h v hv)]
  | object fields ih =>
    obtain ⟨-, h⟩ := Value.all_object.1 h
    rw [tree_object, Value.toNode_object]
    refine congrArg Node.map (List.map_congr_left fun f hf => ?_)
    rw [ih f hf (h f hf)]

/-! ### Folding the tokens -/

/-- No value starts with the end of an array. -/
theorem tokensOf_ne_closeArray (v : Value) (ts us : List Token) :
    tokensOf v ++ ts ≠ .closeArray :: us := by
  cases v with
  | null | bool | int | double | text => simp [tokensOf]
  | array items => cases items <;> simp [tokensOf]
  | object fields => cases fields <;> simp [tokensOf]

theorem valueFrom_openArray (h : ∀ us, ts ≠ .closeArray :: us) :
    valueFrom stack (.openArray :: ts) = valueFrom (.array [] :: stack) ts := by
  rw [valueFrom]
  exact h

theorem afterValue_comma :
    afterValue (.array found :: stack) n (.comma :: ts) =
      valueFrom (.array (n :: found) :: stack) ts := by
  by_cases h : ∃ key us, ts = .text key :: .colon :: us
  · obtain ⟨key, us, rfl⟩ := h
    rw [afterValue]
  · rw [afterValue]
    exact fun key us he => h ⟨key, us, he⟩

theorem afterValue_nil_cons (n : Node) (t : Token) (ts : List Token) :
    afterValue [] n (t :: ts) = none := by
  cases t with
  | comma =>
    by_cases h : ∃ key us, ts = .text key :: .colon :: us
    · obtain ⟨key, us, rfl⟩ := h
      rw [afterValue]
    · rw [afterValue]
      · exact fun key us he => h ⟨key, us, he⟩
      · exact nofun
  | _ => simp [afterValue]

/-- Items that are folded into their trees are put behind those found before. -/
theorem afterValue_itemTokens
    (h : ∀ v ∈ items, ∀ stack ts, valueFrom stack (tokensOf v ++ ts) = afterValue stack (tree v) ts)
    (stack : List Level) (found : List Node) (n : Node) (ts : List Token) :
    afterValue (.array found :: stack) n (itemTokens items ++ .closeArray :: ts) =
      afterValue stack (.seq (found.reverse ++ n :: items.map tree)) ts := by
  induction items generalizing found n with
  | nil => simp [itemTokens, afterValue]
  | cons v vs ih =>
    have hv := h v (by simp) (.array (n :: found) :: stack) (itemTokens vs ++ .closeArray :: ts)
    have hs := ih (fun w hw => h w (List.mem_cons_of_mem v hw)) (n :: found) (tree v)
    rw [itemTokens, List.cons_append, List.append_assoc, afterValue_comma, hv, hs]
    simp

theorem afterValue_fieldTokens
    (h : ∀ f ∈ fields, ∀ stack ts,
      valueFrom stack (tokensOf f.2 ++ ts) = afterValue stack (tree f.2) ts)
    (stack : List Level) (entries : List (Node × Node)) (key n : Node) (ts : List Token) :
    afterValue (.object entries key :: stack) n (fieldTokens fields ++ .closeObject :: ts) =
      afterValue stack
        (.map (entries.reverse ++ (key, n) :: fields.map fun f => (.text f.1, tree f.2))) ts := by
  induction fields generalizing entries key n with
  | nil => simp [fieldTokens, afterValue]
  | cons f fields ih =>
    obtain ⟨k, v⟩ := f
    have hv := h (k, v) (by simp) (.object ((key, n) :: entries) (.text k) :: stack)
      (fieldTokens fields ++ .closeObject :: ts)
    have hs := ih (fun g hg => h g (List.mem_cons_of_mem _ hg)) ((key, n) :: entries) (.text k)
      (tree v)
    dsimp only at hv
    simp only [fieldTokens, List.cons_append, List.append_assoc]
    rw [afterValue, hv, hs]
    simp

/-- **The tokens of a value are folded into its tree.** -/
theorem valueFrom_tokensOf (v : Value) (stack : List Level) (ts : List Token) :
    valueFrom stack (tokensOf v ++ ts) = afterValue stack (tree v) ts := by
  induction v using Value.induct generalizing stack ts with
  | null | bool | int | double | text => simp [tokensOf, valueFrom, tree, Value.toNode]
  | array items ih =>
    cases items with
    | nil => simp [tokensOf, valueFrom, tree_array]
    | cons v vs =>
      have hv := ih v (by simp) (.array [] :: stack) (itemTokens vs ++ .closeArray :: ts)
      have hs := afterValue_itemTokens (fun w hw => ih w (List.mem_cons_of_mem v hw)) stack []
        (tree v) ts
      simp only [tokensOf, List.cons_append, List.append_assoc, List.nil_append]
      rw [valueFrom_openArray (tokensOf_ne_closeArray v _), hv, hs, tree_array]
      rfl
  | object fields ih =>
    cases fields with
    | nil => simp [tokensOf, valueFrom, tree_object]
    | cons f fields =>
      obtain ⟨key, v⟩ := f
      have hv := ih (key, v) (by simp) (.object [] (.text key) :: stack)
        (fieldTokens fields ++ .closeObject :: ts)
      have hs := afterValue_fieldTokens (fun g hg => ih g (List.mem_cons_of_mem _ hg)) stack []
        (.text key) (tree v) ts
      dsimp only at hv
      simp only [tokensOf, List.cons_append, List.append_assoc, List.nil_append]
      rw [valueFrom, hv, hs, tree_object]
      rfl

/-! ### Texts -/

theorem ends_blanks (h : after.all isBlank = true) : Ends after := by
  intro b hb
  have hm : b ∈ after := List.mem_of_mem_head? hb
  have hx : isBlank b = true := List.all_eq_true.1 h b hm
  simp only [isBlank, Bool.or_eq_true, decide_eq_true_eq] at hx
  rcases hx with ((rfl | rfl) | rfl) | rfl <;> decide

/-- **A text of a value, with blanks around it, spells the tree of the value.** -/
theorem parse?_print (hv : v.Bounded) (hb : before.all isBlank = true)
    (ha : after.all isBlank = true) : parse? (before ++ print v ++ after) = some (tree v) := by
  have hs : Scans (before ++ print v ++ after) (tokensOf v) [] := by
    have hx := (scans_blanks hb (print v ++ after)).trans (scans_print v hv after (ends_blanks ha))
    have he := hx.trans (by simpa using scans_blanks ha [])
    simpa using he
  have hf := valueFrom_tokensOf v [] []
  rw [List.append_nil] at hf
  rw [parse?, tokens?_of_scans hs, Option.bind_some, hf, afterValue]

/-- **Behind the text of an object only blanks may come.** -/
theorem parse?_print_cons {b : UInt8} (hv : (Value.object fields).Bounded)
    (hb : before.all isBlank = true) (ha : after.all isBlank = true) (hn : isBlank b = false)
    (more : List UInt8) :
    parse? (before ++ print (.object fields) ++ after ++ b :: more) = none := by
  have hs : Scans (before ++ print (.object fields) ++ after ++ b :: more)
      (tokensOf (.object fields)) (b :: more) := by
    have hx := (scans_blanks hb _).trans (scans_object hv (after ++ b :: more))
    have he := hx.trans (scans_blanks ha (b :: more))
    simpa using he
  cases ht : tokens? (before ++ print (.object fields) ++ after ++ b :: more) with
  | none => rw [parse?, ht, Option.bind_none]
  | some us =>
    obtain ⟨u, us', rfl⟩ := tokens?_extends hs hn ht
    rw [parse?, ht, Option.bind_some, valueFrom_tokensOf, afterValue_nil_cons]

end DocWire.Json
