import DocWire.Entries

/-!
# Routes of subscriptions

A route leads from the id of a subscription to what is to be called for it. An id has one route at
most, and the first one stays. What an operation does is said by what the ids lead to after it
(`get?_subscribe`, `get?_unsubscribe`, `get?_clear`).
-/

namespace DocWire

/-- The routes there are, one for each id. -/
structure Routes (κ : Type) where
  entries : List (String × κ)
  deriving DecidableEq, Repr, Inhabited

namespace Routes

variable {κ : Type}

/-- No route at all. -/
def empty : Routes κ := ⟨[]⟩

/-- The number of routes. -/
def size (r : Routes κ) : Nat := r.entries.length

/-- What an id leads to. -/
def get? (r : Routes κ) (id : String) : Option κ := r.entries.lookup id

/-- Whether an id has a route. -/
def contains (r : Routes κ) (id : String) : Bool := (r.get? id).isSome

/-- The ids that have a route. -/
def ids (r : Routes κ) : List String := r.entries.map (·.1)

/-- Opens a route unless the id has one; tells whether it was opened. -/
def subscribe (r : Routes κ) (id : String) (target : κ) : Bool × Routes κ :=
  if r.contains id then (false, r) else (true, ⟨r.entries ++ [(id, target)]⟩)

/-- Closes the route of an id; tells whether there was one. -/
def unsubscribe (r : Routes κ) (id : String) : Bool × Routes κ :=
  (r.contains id, ⟨Entries.without id r.entries⟩)

/-- Closes all routes; tells how many there were. -/
def clear (r : Routes κ) : Nat × Routes κ := (r.size, empty)

@[simp] theorem get?_empty (id : String) : (empty : Routes κ).get? id = none := rfl

@[simp] theorem get?_clear (r : Routes κ) (id : String) : r.clear.2.get? id = none := rfl

/-- An id that is subscribed leads where it led before, or to the new target; the others stay. -/
theorem get?_subscribe (r : Routes κ) (id other : String) (target : κ) :
    (r.subscribe id target).2.get? other =
      if other = id then some ((r.get? id).getD target) else r.get? other := by
  unfold subscribe contains
  cases hg : r.get? id with
  | some t =>
    by_cases ho : other = id
    · subst ho; simp [hg]
    · simp [ho]
  | none =>
    have hl : r.entries.lookup id = none := hg
    simp only [Option.isSome_none, Bool.false_eq_true, if_false, get?, List.lookup_append]
    by_cases ho : other = id
    · subst ho; simp [hl]
    · have hb : (other == id) = false := by simpa using ho
      rw [if_neg ho, List.lookup_cons, hb]
      simp

theorem get?_unsubscribe (r : Routes κ) (id other : String) :
    (r.unsubscribe id).2.get? other = if other = id then none else r.get? other :=
  Entries.lookup_without r.entries id other

end Routes

end DocWire
