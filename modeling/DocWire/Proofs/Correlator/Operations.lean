import DocWire.Correlator

/-! # What the operations of a correlator do

Every operation is described by two views of its outcome: the slot that each id leads to, and the
mailbox of each registration. A mailbox that is decided, that is, not vacant, stays as it is until
its own waiter leaves. -/

namespace DocWire.Correlator

variable {κ : Type} {c c' : Correlator κ}

/-! ### Registering -/

theorem mailbox_of_length_le {ticket : Nat} (h : c.mailboxes.length ≤ ticket) :
    c.mailbox ticket = .abandoned := by
  unfold mailbox
  rw [List.getD_eq_getElem?_getD, List.getElem?_eq_none h]
  rfl

theorem lt_length_of_mailbox_ne {ticket : Nat} (h : c.mailbox ticket ≠ .abandoned) :
    ticket < c.mailboxes.length :=
  Nat.lt_of_not_le fun hl => h (mailbox_of_length_le hl)

theorem register_ok {id : String} {sub : Option κ} {w : Waiter}
    (h : c.register id sub = .ok (w, c')) :
    c.closed = false ∧ c.slots.lookup id = none ∧ w = ⟨id, c.mailboxes.length⟩ ∧
      c' = { c with
        slots := c.slots ++ [(id, ⟨c.mailboxes.length, sub⟩)]
        mailboxes := c.mailboxes ++ [.vacant] } := by
  unfold register at h
  split at h
  · cases h
  next hc =>
    split at h
    · cases h
    next hi =>
      obtain ⟨rfl, rfl⟩ := Prod.mk.inj (Except.ok.inj h)
      exact ⟨by simpa using hc, Option.not_isSome_iff_eq_none.1 hi, rfl, rfl⟩

theorem lookup_register {id : String} {sub : Option κ} {w : Waiter}
    (h : c.register id sub = .ok (w, c')) (other : String) :
    c'.slots.lookup other = if other = id then some ⟨w.ticket, sub⟩ else c.slots.lookup other := by
  obtain ⟨-, hn, rfl, rfl⟩ := register_ok h
  rw [List.lookup_append]
  by_cases ho : other = id
  · subst ho
    simp [hn]
  · have hb : (other == id) = false := by simpa using ho
    rw [if_neg ho, List.lookup_cons, hb]
    simp

theorem mailbox_register {id : String} {sub : Option κ} {w : Waiter}
    (h : c.register id sub = .ok (w, c')) (ticket : Nat) :
    c'.mailbox ticket = if ticket = w.ticket then .vacant else c.mailbox ticket := by
  obtain ⟨-, -, rfl, rfl⟩ := register_ok h
  unfold mailbox
  rw [List.getD_eq_getElem?_getD, List.getD_eq_getElem?_getD, List.getElem?_append]
  by_cases ht : ticket = c.mailboxes.length
  · subst ht
    simp
  · rw [if_neg ht]
    split
    · rfl
    next hl =>
      have hs : ticket - c.mailboxes.length = (ticket - c.mailboxes.length - 1) + 1 := by omega
      rw [hs, List.getElem?_eq_none (Nat.le_of_not_lt hl)]
      rfl

/-! ### The two ends of a registration -/

theorem slots_fulfill (c : Correlator κ) (slot : Slot κ) (reply : Reply) :
    (c.fulfill slot reply).2.slots = c.slots := by
  unfold fulfill
  split <;> rfl

theorem fulfill_eq_true {slot : Slot κ} {reply : Reply} :
    (c.fulfill slot reply).1 = true ↔ c.mailbox slot.ticket = .vacant := by
  unfold fulfill
  split
  next h => simp [h]
  next h => exact ⟨nofun, fun hv => absurd hv h⟩

theorem mailbox_fulfill (c : Correlator κ) (slot : Slot κ) (reply : Reply) (ticket : Nat) :
    (c.fulfill slot reply).2.mailbox ticket =
      if ticket = slot.ticket ∧ c.mailbox ticket = .vacant then .filled reply
      else c.mailbox ticket := by
  unfold fulfill
  split
  next h =>
    have hl : slot.ticket < c.mailboxes.length := lt_length_of_mailbox_ne (by simp [h])
    rw [mailbox_setMailbox]
    by_cases ht : ticket = slot.ticket
    · subst ht; simp [h, hl]
    · simp [ht]
  next h =>
    have hn : ¬ (ticket = slot.ticket ∧ c.mailbox ticket = .vacant) := fun ⟨ht, hv⟩ =>
      h (ht ▸ hv)
    rw [if_neg hn]

theorem slots_dropSlot (c : Correlator κ) (slot : Slot κ) : (c.dropSlot slot).slots = c.slots := by
  unfold dropSlot
  split <;> rfl

theorem mailbox_dropSlot (c : Correlator κ) (slot : Slot κ) (ticket : Nat) :
    (c.dropSlot slot).mailbox ticket =
      if ticket = slot.ticket ∧ c.mailbox ticket = .vacant then .orphaned
      else c.mailbox ticket := by
  unfold dropSlot
  split
  next h =>
    have hl : slot.ticket < c.mailboxes.length := lt_length_of_mailbox_ne (by simp [h])
    rw [mailbox_setMailbox]
    by_cases ht : ticket = slot.ticket
    · subst ht; simp [h, hl]
    · simp [ht]
  next h =>
    have hn : ¬ (ticket = slot.ticket ∧ c.mailbox ticket = .vacant) := fun ⟨ht, hv⟩ =>
      h (ht ▸ hv)
    rw [if_neg hn]

/-! ### Closing and leaving -/

theorem slots_dropSlots (c : Correlator κ) (entries : List (String × Slot κ)) :
    (entries.foldl (fun c entry => c.dropSlot entry.2) c).slots = c.slots := by
  induction entries generalizing c with
  | nil => rfl
  | cons e entries ih => rw [List.foldl_cons, ih, slots_dropSlot]

theorem mailbox_dropSlots (c : Correlator κ) (entries : List (String × Slot κ)) (ticket : Nat) :
    (entries.foldl (fun c entry => c.dropSlot entry.2) c).mailbox ticket =
      if (∃ e ∈ entries, ticket = e.2.ticket) ∧ c.mailbox ticket = .vacant then .orphaned
      else c.mailbox ticket := by
  induction entries generalizing c with
  | nil => simp
  | cons e entries ih =>
    rw [List.foldl_cons, ih, mailbox_dropSlot]
    by_cases ht : ticket = e.2.ticket
    · by_cases hv : c.mailbox ticket = .vacant
      · simp [← ht, hv]
      · simp [hv]
    · have he : (∃ e' ∈ e :: entries, ticket = e'.2.ticket) ↔
          ∃ e' ∈ entries, ticket = e'.2.ticket := by simp [ht]
      have hn : ¬ (ticket = e.2.ticket ∧ c.mailbox ticket = .vacant) := fun h => ht h.1
      simp only [he, if_neg hn]

@[simp] theorem slots_failAll (c : Correlator κ) : c.failAll.2.slots = [] := by
  unfold failAll
  rw [slots_dropSlots]

theorem mailbox_failAll (c : Correlator κ) (ticket : Nat) :
    c.failAll.2.mailbox ticket =
      if (∃ e ∈ c.slots, ticket = e.2.ticket) ∧ c.mailbox ticket = .vacant then .orphaned
      else c.mailbox ticket := by
  unfold failAll
  rw [mailbox_dropSlots]
  rfl

theorem lookup_leave (c : Correlator κ) (w : Waiter) (id : String) :
    (c.leave w).slots.lookup id = if id = w.id then none else c.slots.lookup id := by
  have h := lookup_remove c w.id id
  unfold leave take
  cases c.slots.lookup w.id with
  | none => exact h
  | some slot =>
    dsimp only [setMailbox]
    rw [slots_dropSlot]
    exact h

/-- Whoever leaves decides its own mailbox, and that of the slot that its id leads to. -/
theorem mailbox_leave (c : Correlator κ) (w : Waiter) (ticket : Nat) :
    (c.leave w).mailbox ticket =
      if ticket = w.ticket then .abandoned
      else if (∃ slot, c.slots.lookup w.id = some slot ∧ ticket = slot.ticket) ∧
          c.mailbox ticket = .vacant then .orphaned
      else c.mailbox ticket := by
  unfold leave take
  cases hl : c.slots.lookup w.id with
  | none =>
    dsimp only
    rw [mailbox_setMailbox]
    by_cases ht : ticket = w.ticket
    · subst ht
      by_cases hn : w.ticket < (c.remove w.id).mailboxes.length
      · simp [hn]
      · simp [hn, mailbox_of_length_le (Nat.le_of_not_lt hn)]
    · simp [ht]
      rfl
  | some slot =>
    dsimp only
    rw [mailbox_setMailbox]
    by_cases ht : ticket = w.ticket
    · subst ht
      by_cases hn : w.ticket < ((c.remove w.id).dropSlot slot).mailboxes.length
      · simp [hn]
      · simp [hn, mailbox_of_length_le (Nat.le_of_not_lt hn)]
    · rw [if_neg fun h => ht h.1, if_neg ht, mailbox_dropSlot]
      simp [remove, mailbox]

/-! ### The number of mailboxes -/

theorem length_register {id : String} {sub : Option κ} {w : Waiter}
    (h : c.register id sub = .ok (w, c')) : c'.mailboxes.length = c.mailboxes.length + 1 := by
  obtain ⟨-, -, -, rfl⟩ := register_ok h
  exact List.length_append

theorem length_fulfill (c : Correlator κ) (slot : Slot κ) (reply : Reply) :
    (c.fulfill slot reply).2.mailboxes.length = c.mailboxes.length := by
  unfold fulfill setMailbox
  split <;> simp

theorem length_dropSlot (c : Correlator κ) (slot : Slot κ) :
    (c.dropSlot slot).mailboxes.length = c.mailboxes.length := by
  unfold dropSlot setMailbox
  split <;> simp

theorem length_leave (c : Correlator κ) (w : Waiter) :
    (c.leave w).mailboxes.length = c.mailboxes.length := by
  unfold leave take setMailbox
  cases c.slots.lookup w.id with
  | none => simp [remove]
  | some slot => simp [remove, length_dropSlot]

theorem length_failAll (c : Correlator κ) :
    c.failAll.2.mailboxes.length = c.mailboxes.length := by
  have hf : ∀ (l : List (String × Slot κ)) (c : Correlator κ),
      (l.foldl (fun c e => c.dropSlot e.2) c).mailboxes.length = c.mailboxes.length := by
    intro l
    induction l with
    | nil => exact fun _ => rfl
    | cons e l ih =>
      intro c
      rw [List.foldl_cons, ih, length_dropSlot]
  exact hf c.slots _

/-! ### What a waiter finds -/

/-- A wait ends with the reply in the mailbox, with a mailbox that nothing can come into any more,
or with its time. -/
theorem outcome?_eq_some {w : Waiter} {expired : Bool} {bound : Span}
    {r : Except Failure Reply} (h : c.outcome? w expired bound = some r) :
    (∃ reply, c.mailbox w.ticket = .filled reply ∧ r = .ok reply) ∨
      ((c.mailbox w.ticket = .orphaned ∨ c.mailbox w.ticket = .abandoned) ∧
        r = .error .connectionClosed) ∨
      (c.mailbox w.ticket = .vacant ∧ expired = true ∧ r = .error (.timeout bound)) := by
  unfold outcome? at h
  split at h
  next reply hm => exact .inl ⟨reply, hm, (Option.some.inj h).symm⟩
  next hm => exact .inr (.inl ⟨.inl hm, (Option.some.inj h).symm⟩)
  next hm => exact .inr (.inl ⟨.inr hm, (Option.some.inj h).symm⟩)
  next hm =>
    split at h
    next he => exact .inr (.inr ⟨hm, he, (Option.some.inj h).symm⟩)
    next => cases h

theorem outcome?_eq_none {w : Waiter} {expired : Bool} {bound : Span}
    (h : c.outcome? w expired bound = none) :
    c.mailbox w.ticket = .vacant ∧ expired = false := by
  unfold outcome? at h
  split at h
  · cases h
  · cases h
  · cases h
  next hm =>
    split at h
    · cases h
    next he => exact ⟨hm, Bool.eq_false_iff.2 he⟩

end DocWire.Correlator
