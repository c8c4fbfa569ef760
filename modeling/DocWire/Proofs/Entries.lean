import Mathlib.Data.List.Nodup
import Mathlib.Data.List.Perm.Basic

/-! # Entries with keys of their own

In a list of entries whose keys are all different, an entry is there exactly if it is found under its
key (`mem_iff_lookup`). -/

namespace DocWire.Entries

variable {α β : Type} [BEq β] [LawfulBEq β] {key : β} {v : α} {xs : List (β × α)}

theorem mem_iff_lookup (h : (xs.map (·.1)).Nodup) :
    (key, v) ∈ xs ↔ xs.lookup key = some v := by
  induction xs with
  | nil => simp
  | cons x xs ih =>
    obtain ⟨k, u⟩ := x
    obtain ⟨hk, hn⟩ := List.nodup_cons.1 (List.map_cons ▸ h)
    have ih := ih hn
    by_cases hx : key = k
    · subst hx
      have hv : (key, v) ∉ xs := fun hm => hk (List.mem_map.2 ⟨_, hm, rfl⟩)
      simp [hv, eq_comm]
    · have hb : (key == k) = false := by simpa using hx
      simp [List.lookup_cons, hx, hb, ih]

theorem perm_of_lookup (h : (xs.map (·.1)).Nodup) (hl : xs.lookup key = some v) :
    xs.Perm ((key, v) :: xs.filter fun e => e.1 != key) := by
  induction xs with
  | nil => cases hl
  | cons x xs ih =>
    obtain ⟨k, u⟩ := x
    obtain ⟨hk, hn⟩ := List.nodup_cons.1 (List.map_cons ▸ h)
    by_cases hx : key = k
    · subst hx
      have hu : u = v := by simpa [List.lookup_cons] using hl
      have hf : xs.filter (fun e => e.1 != key) = xs := List.filter_eq_self.2 fun e he => by
        have hne : e.1 ≠ key := fun heq => hk (List.mem_map.2 ⟨e, he, heq⟩)
        simpa using hne
      simp [hu, hf]
    · have hb : (key == k) = false := by simpa using hx
      have hl : xs.lookup key = some v := by simpa [List.lookup_cons, hb] using hl
      have hf : (k != key) = true := by simpa using Ne.symm hx
      rw [List.filter_cons_of_pos (by simpa using hf)]
      exact ((ih hn hl).cons _).trans (.swap _ _ _)

theorem filter_of_lookup_eq_none (hl : xs.lookup key = none) :
    xs.filter (fun e => e.1 != key) = xs := by
  refine List.filter_eq_self.2 fun e he => ?_
  have hne := List.lookup_eq_none_iff.1 hl e he
  simpa [bne, Bool.beq_comm] using hne

end DocWire.Entries
