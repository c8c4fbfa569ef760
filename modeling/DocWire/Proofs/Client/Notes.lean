import DocWire.Proofs.Client.Feeds

/-! # What is written down about registering and closing

A move registers nothing but the id of the next request, and only while the registry is open; and
only an open connection is closed (`Move.notes`). -/

namespace DocWire

namespace Incident

/-- Whether closing begins, as a test. -/
def isClosing : Incident → Bool
  | .closing => true
  | _ => false

/-- Whether a request is registered or closing begins. -/
def OfRegistry : Incident → Prop
  | .registered _ _ | .closing => True
  | _ => False

theorem OfReception.not_ofRegistry {i : Incident} (h : i.OfReception) : ¬ i.OfRegistry := by
  cases i <;> first | exact id | exact h.elim

theorem isClosing_iff {i : Incident} : i.isClosing = true ↔ i = .closing := by
  cases i <;> simp [isClosing]

end Incident

/-- How often closing has begun. -/
def closings (j : List Incident) : Nat := j.countP Incident.isClosing

theorem closings_append (j l : List Incident) : closings (j ++ l) = closings j + closings l :=
  List.countP_append

theorem closings_eq_zero {l : List Incident} : closings l = 0 ↔ .closing ∉ l := by
  unfold closings
  rw [List.countP_eq_zero]
  exact ⟨fun h hm => h _ hm rfl, fun h i hi hc => h (Incident.isClosing_iff.1 hc ▸ hi)⟩

namespace Client

open DocWire.Correlator (Waiter)

variable {c c' c₁ : Client} {n : Nat} {l : List Incident} {waiter : Option Waiter}

/-- What a move writes down about registering and closing: only the id of the next request is
registered, while the registry is open, and only an open connection is closed, once. -/
structure Notes (c c' : Client) (l : List Incident) : Prop where
  registered : ∀ {n id}, .registered n id ∈ l → id = c.nextId ∧ c.correlator.closed = false
  closing : .closing ∈ l → c.life = .connected ∧ c'.life = .closing
  once : closings l ≤ 1

theorem Notes.aside (hl : ∀ i ∈ l, ¬ i.OfRegistry) : Notes c c' l where
  registered hm := absurd trivial (hl _ hm)
  closing hm := absurd trivial (hl _ hm)
  once := by
    rw [closings_eq_zero.2 fun hm => hl _ hm trivial]
    exact Nat.zero_le _

theorem notes_nothing (h : c'.journal = c.journal) :
    ∃ l, c'.journal = c.journal ++ l ∧ Notes c c' l :=
  ⟨[], h.trans (List.append_nil _).symm, .aside nofun⟩

/-- What comes in, or a waiter that leaves, is written down beside the registry. -/
theorem Notes.ofReception (hl : ∀ i ∈ l, i.OfReception) : Notes c c' l :=
  .aside fun i hi => (hl i hi).not_ofRegistry

theorem Enters.notes {message : ClientMessage} (he : c.Enters n message waiter c₁) :
    ∃ l, c₁.journal = c.journal ++ l ∧ closings l = 0 ∧
      ∀ {m id}, .registered m id ∈ l → id = c.nextId ∧ c.correlator.closed = false := by
  cases he with
  | request hs hh hj hr =>
    refine ⟨_, List.append_assoc _ _ _, rfl, fun hm => ?_⟩
    obtain ⟨hk, -, hw, -⟩ := Correlator.register_ok hr
    subst hw
    simp only [List.singleton_append, List.mem_cons, Incident.registered.injEq, reduceCtorEq,
      List.not_mem_nil, or_false] at hm
    exact ⟨hm.2, hk⟩
  | farewell hs hh hj => exact ⟨_, rfl, rfl, by simp⟩

theorem Sends.notes (hs : c.Sends n waiter c₁) :
    ∃ l, c₁.journal = c.journal ++ l ∧ closings l = 0 ∧
      ∀ {m id}, .registered m id ∈ l → id = c.nextId ∧ c.correlator.closed = false := by
  cases hs with
  | atOnce he => exact he.notes
  | later hs => exact ⟨[], (List.append_nil _).symm, rfl, nofun⟩

theorem Fails.notes {e : Failure} (hs : c.Sends n waiter c₁)
    (hf : c.Fails n e ((c₁.record (.unsent n e)).yield.forgetAny waiter) c') :
    ∃ l, c'.journal = c.journal ++ l ∧ Notes c c' l := by
  obtain ⟨l, hj, hc, hr⟩ := hs.notes
  obtain ⟨l', hj', hl'⟩ := journal_forgetAny (c₁.record (.unsent n e)).yield waiter
  have hx : ((c₁.record (.unsent n e)).yield.forgetAny waiter).journal =
      c.journal ++ (l ++ .unsent n e :: l') := by
    rw [hj', journal_yield, journal_record, hj]
    simp
  have hc' : closings (l ++ .unsent n e :: l') = 0 := by
    rw [closings_append, hc, Nat.zero_add]
    exact closings_eq_zero.2 fun hm => by
      rcases List.mem_cons.1 hm with hm | hm
      · cases hm
      · obtain ⟨id, h⟩ := hl' _ hm
        cases h
  have hr' : ∀ {m id}, .registered m id ∈ l ++ .unsent n e :: l' →
      id = c.nextId ∧ c.correlator.closed = false := fun hm => by
    rcases List.mem_append.1 hm with hm | hm
    · exact hr hm
    · rcases List.mem_cons.1 hm with hm | hm
      · cases hm
      · obtain ⟨id, h⟩ := hl' _ hm
        cases h
  cases hf with
  | ends _ =>
    exact ⟨_, hx, ⟨hr', fun hm => absurd hm (closings_eq_zero.1 hc'), by omega⟩⟩
  | closes hl =>
    refine ⟨(l ++ .unsent n e :: l') ++ [.closing], ?_, ⟨fun hm => ?_, fun _ => ⟨hl, rfl⟩, ?_⟩⟩
    · rw [← List.append_assoc, ← hx]
      rfl
    · rcases List.mem_append.1 hm with hm | hm
      · exact hr' hm
      · cases List.mem_singleton.1 hm
    · rw [closings_append, hc']
      exact Nat.le_refl _

/-- **Only the id of the next request is registered, and only an open connection is closed.** -/
theorem Move.notes (hm : c.Move c') : ∃ l, c'.journal = c.journal ++ l ∧ Notes c c' l := by
  cases hm with
  | quiet hq => exact notes_nothing (journal_eq hq).symm
  | begin he hf hw =>
    obtain ⟨l, hj, hc, hr⟩ := he.notes
    exact ⟨l, hj, ⟨hr, fun hm => absurd hm (closings_eq_zero.1 hc), by omega⟩⟩
  | fail hs he hf => exact hf.notes hs
  | sent hs hr => exact ⟨_, rfl, .aside (by simp [Incident.OfRegistry])⟩
  | @conclude n due w r hs hr =>
    obtain ⟨l, hj, hl⟩ := journal_conclude c n w r
    exact ⟨l, hj, .ofReception hl⟩
  | @dropSend n s hs =>
    obtain ⟨l, hj, hl⟩ := journal_forgetAny c s.waiter
    refine ⟨l, hj, .ofReception fun i hi => ?_⟩
    obtain ⟨id, rfl⟩ := hl i hi
    exact trivial
  | dropWait hs => exact ⟨_, rfl, .aside (by simp [Incident.OfRegistry])⟩
  | unroute hs hj ha => exact ⟨_, rfl, .aside (by simp [Incident.OfRegistry])⟩
  | @close t k hm hl =>
    refine ⟨[.closing], ?_, ⟨by simp, fun _ => ⟨hl, rfl⟩, Nat.le_refl _⟩⟩
    cases t <;> rfl
  | route hr ha f =>
    obtain ⟨l, hj, hl⟩ := journal_route c f
    exact ⟨l, hj, .ofReception hl⟩
  | @takeHalf t k hs hh hw => exact notes_nothing (by cases t <;> rfl)
  | _ => exact notes_nothing rfl

end Client

end DocWire
