import Mathlib.Data.List.Induction
import DocWire.Proofs.Client.Frames

/-! # Registrations, as the journal tells them

The journal tells which requests are registered at any time: a call is registered under its id until
a reply for the id is routed, the waiter of the id leaves, or closing begins. The reply that is
routed while the call is registered is the one that resolves it; the call is not registered after
that, so it is the first one. -/

namespace DocWire

namespace Incident

/-- The call whose request an incident is about. -/
def caller? : Incident → Option Nat
  | .registered n _ | .sending n _ | .sent n _ | .unsent n _ | .answered n _ => some n
  | _ => none

/-- Whether an incident takes an id out of the registry. -/
def Ends (id : String) : Incident → Prop
  | .routed f => ∃ reply, f.reply? = some (id, reply)
  | .left id' => id' = id
  | .closing => True
  | _ => False

end Incident

variable {j l : List Incident} {i : Incident} {n : Nat} {id : String} {reply : Reply}

/-- A call has been registered under an id, and nothing has taken the id out of the registry
since. -/
def Registered (j : List Incident) (n : Nat) (id : String) : Prop :=
  ∃ before since, j = before ++ .registered n id :: since ∧ ∀ i ∈ since, ¬ i.Ends id

/-- A reply for an id was routed while a call was registered under it. -/
def Resolved (j : List Incident) (n : Nat) (id : String) (reply : Reply) : Prop :=
  ∃ before f since, j = before ++ .routed f :: since ∧ Registered before n id ∧
    f.reply? = some (id, reply)

theorem Registered.mem (h : Registered j n id) : .registered n id ∈ j := by
  obtain ⟨before, since, rfl, -⟩ := h
  simp

theorem Resolved.mem (h : Resolved j n id reply) : .registered n id ∈ j := by
  obtain ⟨before, f, since, rfl, hr, -⟩ := h
  exact List.mem_append_left _ hr.mem

theorem registered_concat :
    Registered (j ++ [i]) n id ↔ i = .registered n id ∨ Registered j n id ∧ ¬ i.Ends id := by
  constructor
  · rintro ⟨before, since, hj, hs⟩
    rcases List.eq_nil_or_concat since with rfl | ⟨since', i', rfl⟩
    · left
      exact (List.append_inj' hj rfl).2 |> List.head_eq_of_cons_eq
    · right
      rw [List.concat_eq_append, ← List.cons_append, ← List.append_assoc] at hj
      obtain ⟨hj, hi⟩ := List.append_inj' hj rfl
      have hi : i = i' := List.head_eq_of_cons_eq hi
      refine ⟨⟨before, since', hj, fun k hk => hs k (by simp [hk])⟩, ?_⟩
      rw [hi]
      exact hs i' (by simp)
  · rintro (rfl | ⟨⟨before, since, rfl, hs⟩, hi⟩)
    · exact ⟨j, [], rfl, by simp⟩
    · refine ⟨before, since ++ [i], by simp, fun k hk => ?_⟩
      rcases List.mem_append.1 hk with hk | hk
      · exact hs k hk
      · rw [List.mem_singleton.1 hk]
        exact hi

theorem resolved_concat :
    Resolved (j ++ [i]) n id reply ↔
      Resolved j n id reply ∨
        Registered j n id ∧ ∃ f, i = .routed f ∧ f.reply? = some (id, reply) := by
  constructor
  · rintro ⟨before, f, since, hj, hr, hf⟩
    rcases List.eq_nil_or_concat since with rfl | ⟨since', i', rfl⟩
    · right
      obtain ⟨hj, hi⟩ := List.append_inj' hj rfl
      exact ⟨hj ▸ hr, f, List.head_eq_of_cons_eq hi, hf⟩
    · left
      rw [List.concat_eq_append, ← List.cons_append, ← List.append_assoc] at hj
      exact ⟨before, f, since', (List.append_inj' hj rfl).1, hr, hf⟩
  · rintro (⟨before, f, since, rfl, hr, hf⟩ | ⟨hr, f, rfl, hf⟩)
    · exact ⟨before, f, since ++ [i], by simp, hr, hf⟩
    · exact ⟨j, f, [], rfl, hr, hf⟩

theorem resolved_concat_of_ne (hi : ∀ f, i ≠ .routed f) :
    Resolved (j ++ [i]) n id reply ↔ Resolved j n id reply := by
  rw [resolved_concat]
  exact ⟨fun h => h.resolve_right fun ⟨_, f, hf, _⟩ => hi f hf, .inl⟩

/-- Once a call is not registered any more, it is not registered later either. -/
theorem not_registered_concat (hg : ¬ Registered j n id) (hi : i ≠ .registered n id) :
    ¬ Registered (j ++ [i]) n id := fun h =>
  hg ((registered_concat.1 h).resolve_left hi).1

/-- What is not the registration of a call and does not end it leaves it as it is. -/
theorem registered_append
    (hl : ∀ i ∈ l, i ≠ .registered n id ∧ (Registered j n id → ¬ i.Ends id)) :
    Registered (j ++ l) n id ↔ Registered j n id := by
  induction l using List.reverseRecOn with
  | nil => simp
  | append_singleton l i ih =>
    obtain ⟨hi, he⟩ := hl i (by simp)
    rw [← List.append_assoc, registered_concat, ih fun k hk => hl k (by simp [hk])]
    constructor
    · rintro (h | h)
      · exact absurd h hi
      · exact h.1
    · exact fun h => .inr ⟨h, he h⟩

theorem resolved_append
    (hl : ∀ i ∈ l, i ≠ .registered n id ∧ (Registered j n id → ¬ i.Ends id)) :
    Resolved (j ++ l) n id reply ↔ Resolved j n id reply := by
  induction l using List.reverseRecOn with
  | nil => simp
  | append_singleton l i ih =>
    have hl' : ∀ k ∈ l, k ≠ .registered n id ∧ (Registered j n id → ¬ k.Ends id) := fun k hk =>
      hl k (by simp [hk])
    rw [← List.append_assoc, resolved_concat, ih hl', registered_append hl']
    constructor
    · rintro (h | ⟨hr, f, rfl, hf⟩)
      · exact h
      · exact absurd ⟨reply, hf⟩ ((hl (.routed f) (by simp)).2 hr)
    · exact .inl

end DocWire
