/-!
# Lists of entries

A list of pairs is read as a finite map: `List.lookup` finds the first entry of a key, and `without`
removes all entries of one (`lookup_without`).
-/

namespace DocWire.Entries

variable {α : Type}

/-- The entries of all keys but one. -/
def without (key : String) (entries : List (String × α)) : List (String × α) :=
  entries.filter fun entry => entry.1 != key

/-- A key that was removed is not found, and every other key is found as before. -/
theorem lookup_without (xs : List (String × α)) (key other : String) :
    (without key xs).lookup other = if other = key then none else xs.lookup other := by
  induction xs with
  | nil => simp [without]
  | cons x xs ih =>
    obtain ⟨k, v⟩ := x
    unfold without at ih ⊢
    rw [List.filter_cons]
    by_cases hk : k = key
    · subst hk
      simp only [bne_self_eq_false, Bool.false_eq_true, if_false, ih]
      by_cases ho : other = k
      · simp [ho]
      · have hb : (other == k) = false := by simpa using ho
        rw [if_neg ho, if_neg ho, List.lookup_cons, hb]
    · have hne : (k != key) = true := by simpa using hk
      simp only [hne, if_true, List.lookup_cons]
      by_cases ho : other = k
      · subst ho; simp [hk]
      · have hb : (other == k) = false := by simpa using ho
        simp only [hb, ih]

theorem mem_of_lookup {xs : List (String × α)} {key : String} {v : α}
    (h : xs.lookup key = some v) : (key, v) ∈ xs := by
  obtain ⟨l₁, l₂, rfl, -⟩ := List.lookup_eq_some_iff.1 h
  simp

end DocWire.Entries
