import DocWire.Proofs.Correlator.Agreement

/-! # Whose slot is cleared

An id may be registered again once its slot is out of the registry, also while the request of the
earlier registration is still pending. When that request ends, it clears its id: the slot of the
later registration goes, and its waiter is told that the connection is closed
(`Desk.struck_by_predecessor`). Nothing else that ends does harm to a slot. Whatever ids are
registered again, every slot in the registry has its request, and its mailbox is vacant
(`Parties.Backed`); it stays there until it is taken out, or a request that is pending under its own
id ends (`Parties.Backed.stays`), and until then a reply reaches its waiter. -/

namespace DocWire.Correlator

variable {κ : Type}

namespace Parties

/-- Every slot in the registry has its pending request, and its mailbox is vacant. The tickets of
requests, and those of slots, are all different. -/
structure Backed (s : Parties κ) : Prop where
  keys : (s.correlator.slots.map (·.1)).Nodup
  held : s.held.Nodup
  tickets : s.tickets.Nodup
  pending_lt : ∀ w ∈ s.pending, w.ticket < s.correlator.mailboxes.length
  tickets_lt : ∀ t ∈ s.tickets, t < s.correlator.mailboxes.length
  waiter : ∀ e ∈ s.correlator.slots, ⟨e.1, e.2.ticket⟩ ∈ s.pending
  vacant : ∀ e ∈ s.correlator.slots, s.correlator.mailbox e.2.ticket = .vacant

variable {s s' : Parties κ} {l : List (Nat × Event)} {id : String} {slot : Slot κ}

namespace Backed

theorem mem_tickets {e : String × Slot κ} (he : e ∈ s.correlator.slots) :
    e.2.ticket ∈ s.tickets :=
  List.mem_append_left _ (List.mem_map.2 ⟨e, he, rfl⟩)

theorem withRequest (h : Backed s) {sub : Option κ} {w : Waiter}
    (hr : s.correlator.register id sub = .ok (w, (s.withRequest id sub).correlator)) :
    Backed (s.withRequest id sub) := by
  have hlen := length_register hr
  have hmail := mailbox_register hr
  obtain ⟨-, hfree, rfl, -⟩ := register_ok hr
  have hp := tickets_withRequest s id sub
  have hnew : ∀ e ∈ (s.withRequest id sub).correlator.slots, e ∈ s.correlator.slots ∨
      e = (id, ⟨s.correlator.mailboxes.length, sub⟩) := fun e he =>
    (List.mem_append.1 he).imp_right List.mem_singleton.1
  refine ⟨?_, ?_, ?_, ?_, ?_, fun e he => ?_, fun e he => ?_⟩
  · have hk : (s.withRequest id sub).correlator.slots.map (·.1) =
        s.correlator.slots.map (·.1) ++ [id] := List.map_append
    rw [hk]
    refine List.nodup_append.2 ⟨h.keys, List.nodup_singleton _, fun a ha b hb => ?_⟩
    rintro rfl
    obtain ⟨e, he, rfl⟩ := List.mem_map.1 ha
    have hx := List.lookup_eq_none_iff.1 hfree e he
    rw [List.mem_singleton.1 hb] at hx
    simp at hx
  · refine List.nodup_cons.2 ⟨fun hx => ?_, h.held⟩
    obtain ⟨w, hw, ht⟩ := List.mem_map.1 hx
    exact absurd ht (Nat.ne_of_lt (h.pending_lt w hw))
  · exact hp.nodup_iff.2
      (List.nodup_cons.2 ⟨fun hx => absurd rfl (Nat.ne_of_lt (h.tickets_lt _ hx)), h.tickets⟩)
  · rw [hlen]
    intro w hw
    rcases List.mem_cons.1 hw with rfl | hw
    · exact Nat.lt_succ_self _
    · exact Nat.lt_succ_of_lt (h.pending_lt w hw)
  · rw [hlen]
    intro t ht
    rcases List.mem_cons.1 (hp.subset ht) with rfl | ht
    · exact Nat.lt_succ_self _
    · exact Nat.lt_succ_of_lt (h.tickets_lt t ht)
  · rcases hnew e he with he | rfl
    · exact List.mem_cons_of_mem _ (h.waiter e he)
    · exact List.mem_cons_self
  · rw [hmail]
    rcases hnew e he with he | rfl
    · rw [if_neg (Nat.ne_of_lt (h.tickets_lt _ (mem_tickets he)))]
      exact h.vacant e he
    · exact if_pos rfl

theorem register (h : Backed s) {sub : Option κ} {w : Waiter} {c' : Correlator κ}
    (hr : s.correlator.register id sub = .ok (w, c')) :
    Backed { s with correlator := c', pending := w :: s.pending } := by
  obtain ⟨-, -, rfl, rfl⟩ := register_ok hr
  exact h.withRequest hr

/-- Slots are taken out of the registry, or nothing happens. -/
theorem still (h : Backed s)
    (hz : s'.correlator.mailboxes.length = s.correlator.mailboxes.length)
    (hs : s'.correlator.slots.Sublist s.correlator.slots)
    (hm : ∀ t, s'.correlator.mailbox t = s.correlator.mailbox t)
    (hp : s'.pending.Perm s.pending) (ht : s'.tickets.Perm s.tickets) : Backed s' where
  keys := h.keys.sublist (hs.map _)
  held := (hp.map _).nodup_iff.2 h.held
  tickets := ht.nodup_iff.2 h.tickets
  pending_lt w hw := hz ▸ h.pending_lt w (hp.subset hw)
  tickets_lt t hx := hz ▸ h.tickets_lt t (ht.subset hx)
  waiter e he := hp.mem_iff.2 (h.waiter e (hs.subset he))
  vacant e he := (hm _).trans (h.vacant e (hs.subset he))

theorem use (h : Backed s) {rest : List (Slot κ)} {c' : Correlator κ}
    (hh : s.hands.Perm (slot :: rest))
    (hz : c'.mailboxes.length = s.correlator.mailboxes.length)
    (hs : c'.slots = s.correlator.slots)
    (hm : ∀ t ≠ slot.ticket, c'.mailbox t = s.correlator.mailbox t) :
    Backed { s with correlator := c', hands := rest } := by
  have hp : s.tickets.Perm (slot.ticket ::
      Parties.tickets { s with correlator := c', hands := rest }) := by
    unfold Parties.tickets
    rw [hs]
    exact ((hh.map _).append_left _).trans List.perm_middle
  have hn := List.nodup_cons.1 (hp.nodup_iff.1 h.tickets)
  refine ⟨?_, h.held, hn.2, ?_, ?_, ?_, ?_⟩
  · rw [hs]
    exact h.keys
  · rw [hz]
    exact h.pending_lt
  · rw [hz]
    exact fun t ht => h.tickets_lt t (hp.mem_iff.2 (List.mem_cons_of_mem _ ht))
  · rw [hs]
    exact h.waiter
  · intro e he
    have hne : e.2.ticket ≠ slot.ticket := fun hx => hn.1 (hx ▸ mem_tickets he)
    rw [hm _ hne]
    exact h.vacant e (hs ▸ he)

/-- A request is pending no more. The slots that are left in the registry have other ids, so they are
those of others. -/
theorem leave (h : Backed s) {w : Waiter} {rest : List Waiter} {es : List Ending}
    (hw : s.pending.Perm (w :: rest)) :
    Backed { s with correlator := s.correlator.leave w, pending := rest, endings := es } := by
  have hss : (s.correlator.leave w).slots.Sublist s.correlator.slots := by
    rw [slots_leave]
    exact List.filter_sublist
  have hid : ∀ e ∈ (s.correlator.leave w).slots, e ∈ s.correlator.slots ∧ e.1 ≠ w.id := by
    intro e he
    rw [slots_leave] at he
    obtain ⟨he, hne⟩ := List.mem_filter.1 he
    exact ⟨he, by simpa using hne⟩
  have hwp : w ∈ s.pending := hw.mem_iff.2 List.mem_cons_self
  refine ⟨h.keys.sublist (hss.map _), ?_, h.tickets.sublist ((hss.map _).append_right _), ?_, ?_,
    fun e he => ?_, fun e he => ?_⟩
  · have hp : s.held.Perm (w.ticket :: rest.map (·.ticket)) := hw.map _
    exact (List.nodup_cons.1 (hp.nodup_iff.1 h.held)).2
  · rw [length_leave]
    exact fun v hv => h.pending_lt v (hw.mem_iff.2 (List.mem_cons_of_mem _ hv))
  · rw [length_leave]
    exact fun t ht => h.tickets_lt t (((hss.map _).append_right _).subset ht)
  · obtain ⟨he, hne⟩ := hid e he
    rcases List.mem_cons.1 (hw.mem_iff.1 (h.waiter e he)) with hx | hx
    · exact absurd (congrArg Waiter.id hx) hne
    · exact hx
  · obtain ⟨he, hne⟩ := hid e he
    rw [mailbox_leave, if_neg, if_neg]
    · exact h.vacant e he
    · rintro ⟨⟨slot, hl, ht⟩, -⟩
      have hx : e = (w.id, slot) := List.inj_on_of_nodup_map
        (List.nodup_append.1 h.tickets).1 he (Entries.mem_of_lookup hl) ht
      exact hne (congrArg Prod.fst hx)
    · intro ht
      have hx : (⟨e.1, e.2.ticket⟩ : Waiter) = w :=
        List.inj_on_of_nodup_map h.held (h.waiter e he) hwp ht
      exact hne (congrArg Waiter.id hx)

/-- **Every move keeps the slots backed**, whatever ids are registered again. -/
theorem move (h : Backed s) (hm : Move s l s') : Backed s' := by
  cases hm with
  | register hr => exact h.register hr
  | take hl =>
    have hp := ((Entries.perm_of_lookup h.keys hl).map (·.2.ticket)).append_right
      (s.hands.map (·.ticket))
    exact h.still rfl List.filter_sublist (fun _ => rfl) (.refl _)
      (List.perm_middle.trans hp.symm)
  | close =>
    refine h.still rfl (List.nil_sublist _) (fun _ => rfl) (.refl _) ?_
    simp [Parties.tickets, Function.comp_def]
  | give reply hh =>
    refine h.use hh (length_fulfill _ _ _) (slots_fulfill _ _ _) fun t ht => ?_
    rw [mailbox_fulfill, if_neg fun hx => ht hx.1]
  | destroy hh =>
    refine h.use hh (length_dropSlot _ _) (slots_dropSlot _ _) fun t ht => ?_
    rw [mailbox_dropSlot, if_neg fun hx => ht hx.1]
  | drop hw => exact h.leave hw
  | finish hw => exact h.leave hw
  | report he => exact h.still rfl (.refl _) (fun _ => rfl) (.refl _) (.refl _)
  | forget he => exact h.still rfl (.refl _) (fun _ => rfl) (.refl _) (.refl _)
  | aside hc hp hh =>
    refine h.still (by rw [hc]) (by rw [hc]) (fun t => by rw [hc]) hp ?_
    unfold Parties.tickets
    rw [hc]
    exact (hh.map _).append_left _

theorem moves (h : Backed s) (hm : Moves s l s') : Backed s' := by
  induction hm with
  | refl => exact h
  | tail _ hm ih => exact ih.move hm

theorem nodup_pending (h : Backed s) : s.pending.Nodup := List.Nodup.of_map _ h.held

end Backed

/-! ### What becomes of a slot -/

/-- A slot that has been taken out is out, or it has been used up. -/
def Out (s : Parties κ) (l : List (Nat × Event)) (t : Nat) : Prop :=
  t ∈ s.hands.map (·.ticket) ∨ ∃ e : Event, e.ofSlot = true ∧ (t, e) ∈ l

variable {t : Nat} {w : Waiter} {e : Event} {l' : List (Nat × Event)} {s'' : Parties κ}

theorem length_move (hm : Move s l s') :
    s.correlator.mailboxes.length ≤ s'.correlator.mailboxes.length := by
  cases hm with
  | register hr =>
    rw [length_register hr]
    exact Nat.le_succ _
  | give => exact Nat.le_of_eq (length_fulfill _ _ _).symm
  | destroy => exact Nat.le_of_eq (length_dropSlot _ _).symm
  | drop => exact Nat.le_of_eq (length_leave _ _).symm
  | finish => exact Nat.le_of_eq (length_leave _ _).symm
  | aside hc => exact Nat.le_of_eq (congrArg (·.mailboxes.length) hc.symm)
  | _ => exact Nat.le_refl _

theorem lt_of_mem_pending_move (hm : Move s l s') (hw : w ∈ s'.pending)
    (hl : w.ticket < s.correlator.mailboxes.length) : w ∈ s.pending := by
  cases hm with
  | register hr =>
    obtain ⟨-, -, rfl, -⟩ := register_ok hr
    rcases List.mem_cons.1 hw with rfl | hw
    · exact absurd hl (Nat.lt_irrefl _)
    · exact hw
  | drop hp => exact hp.mem_iff.2 (List.mem_cons_of_mem _ hw)
  | finish hp => exact hp.mem_iff.2 (List.mem_cons_of_mem _ hw)
  | aside _ hp => exact hp.mem_iff.1 hw
  | _ => exact hw

theorem lt_of_mem_slots_move {e : String × Slot κ} (hm : Move s l s')
    (he : e ∈ s'.correlator.slots) (hl : e.2.ticket < s.correlator.mailboxes.length) :
    e ∈ s.correlator.slots := by
  cases hm with
  | register hr =>
    obtain ⟨-, -, -, rfl⟩ := register_ok hr
    rcases List.mem_append.1 he with he | he
    · exact he
    · rw [List.mem_singleton.1 he] at hl
      exact absurd hl (Nat.lt_irrefl _)
  | take => exact List.mem_of_mem_filter he
  | close => cases he
  | give => rwa [slots_fulfill] at he
  | destroy => rwa [slots_dropSlot] at he
  | drop =>
    rw [slots_leave] at he
    exact List.mem_of_mem_filter he
  | finish =>
    rw [slots_leave] at he
    exact List.mem_of_mem_filter he
  | aside hc => rwa [hc] at he
  | _ => exact he

theorem mem_hands_of_told (hm : Move s l s') (he : e.ofSlot = true) (hx : (t, e) ∈ l) :
    t ∈ s.hands.map (·.ticket) := by
  cases hm with
  | give reply hp =>
    cases List.mem_singleton.1 hx
    exact List.mem_map.2 ⟨_, hp.mem_iff.2 List.mem_cons_self, rfl⟩
  | destroy hp =>
    cases List.mem_singleton.1 hx
    exact List.mem_map.2 ⟨_, hp.mem_iff.2 List.mem_cons_self, rfl⟩
  | take | close | finish | aside => cases hx
  | _ =>
    cases List.mem_singleton.1 hx
    cases he

theorem Out.move (h : s.Out l t) (hm : Move s l' s') : s'.Out (l ++ l') t := by
  have huse : ∀ {slot : Slot κ} {rest : List (Slot κ)} {e : Event}, s.hands.Perm (slot :: rest) →
      e.ofSlot = true → t ∈ s.hands.map (·.ticket) →
      t ∈ rest.map (·.ticket) ∨ ∃ e' : Event, e'.ofSlot = true ∧ (t, e') ∈ [(slot.ticket, e)] := by
    intro slot rest e hp he ht
    rcases List.mem_cons.1 ((hp.map (·.ticket)).subset ht) with rfl | ht
    · exact .inr ⟨e, he, List.mem_singleton_self _⟩
    · exact .inl ht
  have hnext : t ∈ s.hands.map (·.ticket) →
      t ∈ s'.hands.map (·.ticket) ∨ ∃ e : Event, e.ofSlot = true ∧ (t, e) ∈ l' := by
    intro ht
    cases hm with
    | take => exact .inl (List.mem_cons_of_mem _ ht)
    | close =>
      refine .inl ?_
      rw [List.map_append]
      exact List.mem_append_right _ ht
    | give reply hp => exact huse hp rfl ht
    | destroy hp => exact huse hp rfl ht
    | aside _ _ hp => exact .inl ((hp.map _).mem_iff.2 ht)
    | _ => exact .inl ht
  rcases h with ht | ⟨e, he, hx⟩
  · exact (hnext ht).imp_right fun ⟨e, he, hx⟩ => ⟨e, he, List.mem_append_right _ hx⟩
  · exact .inr ⟨e, he, List.mem_append_left _ hx⟩

namespace Backed

theorem ticket_not_mem_hands (h : Backed s) (hl : s.correlator.slots.lookup id = some slot) :
    slot.ticket ∉ s.hands.map (·.ticket) := fun hx =>
  (List.nodup_append.1 h.tickets).2.2 _
    (List.mem_map.2 ⟨_, Entries.mem_of_lookup hl, rfl⟩) _ hx rfl

/-- A ticket is that of one slot. -/
theorem eq_of_ticket (h : Backed s) (hl : s.correlator.slots.lookup id = some slot)
    {e : String × Slot κ} (he : e ∈ s.correlator.slots) (ht : e.2.ticket = slot.ticket) :
    e = (id, slot) :=
  List.inj_on_of_nodup_map (List.nodup_append.1 h.tickets).1 he (Entries.mem_of_lookup hl) ht

theorem lt_of_lookup (h : Backed s) (hl : s.correlator.slots.lookup id = some slot) :
    slot.ticket < s.correlator.mailboxes.length :=
  h.tickets_lt _ (mem_tickets (Entries.mem_of_lookup hl))

end Backed

/-- A slot is in the registry under its id, and the requests that are pending under the id are those
of before. -/
structure Remains (s : Parties κ) (id : String) (slot : Slot κ) (s' : Parties κ) : Prop where
  lookup : s'.correlator.slots.lookup id = some slot
  pending : ∀ w, w.id = id → (w ∈ s'.pending ↔ w ∈ s.pending)

/-- A slot is in the registry no more: it has been taken out, or a request has ended that was pending
under its id. -/
structure Lost (s : Parties κ) (id : String) (slot : Slot κ) (l : List (Nat × Event))
    (s' : Parties κ) : Prop where
  absent : ∀ e ∈ s'.correlator.slots, e.2.ticket ≠ slot.ticket
  why : s'.Out l slot.ticket ∨ ∃ w ∈ s.pending, w.id = id ∧ w ∉ s'.pending

/-- A request that ends clears the slot of its id and no other. -/
theorem Backed.leave_cases (h : Backed s) (hl : s.correlator.slots.lookup id = some slot)
    {rest : List Waiter} {es : List Ending} (hw : s.pending.Perm (w :: rest)) :
    s.Remains id slot
        { s with correlator := s.correlator.leave w, pending := rest, endings := es } ∨
      s.Lost id slot l
        { s with correlator := s.correlator.leave w, pending := rest, endings := es } := by
  by_cases hi : w.id = id
  · refine .inr ⟨fun e he ht => ?_, .inr ⟨w, hw.mem_iff.2 List.mem_cons_self, hi, ?_⟩⟩
    · rw [slots_leave] at he
      obtain ⟨he, hne⟩ := List.mem_filter.1 he
      rw [h.eq_of_ticket hl he ht] at hne
      simp [hi] at hne
    · exact (List.nodup_cons.1 (hw.nodup_iff.1 h.nodup_pending)).1
  · refine .inl ⟨?_, fun v hv => ?_⟩
    · rw [lookup_leave, if_neg (Ne.symm hi)]
      exact hl
    · have hne : v ≠ w := fun hx => hi (hx ▸ hv)
      rw [hw.mem_iff, List.mem_cons, or_iff_right hne]

/-- **What a move does to a slot in the registry.** -/
theorem Backed.remains_or_lost (h : Backed s) (hm : Move s l s')
    (hl : s.correlator.slots.lookup id = some slot) :
    s.Remains id slot s' ∨ s.Lost id slot l s' := by
  have hsame : ∀ {s' : Parties κ}, s'.correlator.slots = s.correlator.slots →
      s'.pending = s.pending → s.Remains id slot s' := fun hs hp =>
    ⟨(congrArg _ hs).trans hl, fun _ _ => by rw [hp]⟩
  cases hm with
  | @register id' _ _ _ hr =>
    have hi : id ≠ id' := by
      obtain ⟨-, hfree, -, -⟩ := register_ok hr
      rintro rfl
      cases hl.symm.trans hfree
    refine .inl ⟨?_, fun v hv => ?_⟩
    · rw [lookup_register hr, if_neg hi]
      exact hl
    · obtain ⟨-, -, rfl, -⟩ := register_ok hr
      exact List.mem_cons.trans (or_iff_right fun hx => hi (by rw [← hv, hx]))
  | @take id' slot' hs =>
    by_cases hi : id = id'
    · subst hi
      cases hl.symm.trans hs
      refine .inr ⟨fun e he ht => ?_, .inl (.inl List.mem_cons_self)⟩
      obtain ⟨he, hne⟩ := List.mem_filter.1 he
      rw [h.eq_of_ticket hl he ht] at hne
      simp at hne
    · refine .inl ⟨?_, fun _ _ => Iff.rfl⟩
      rw [lookup_remove, if_neg hi]
      exact hl
  | close =>
    refine .inr ⟨nofun, .inl (.inl ?_)⟩
    rw [List.map_append]
    refine List.mem_append_left _ (List.mem_map.2 ⟨slot, ?_, rfl⟩)
    exact List.mem_map.2 ⟨_, Entries.mem_of_lookup hl, rfl⟩
  | give => exact .inl (hsame (slots_fulfill _ _ _) rfl)
  | destroy => exact .inl (hsame (slots_dropSlot _ _) rfl)
  | drop hw => exact h.leave_cases hl hw
  | finish hw => exact h.leave_cases hl hw
  | aside hc hp => exact .inl ⟨by rw [hc]; exact hl, fun _ _ => hp.mem_iff⟩
  | _ => exact .inl (hsame rfl rfl)

/-- What is lost does not come back. -/
theorem Lost.move (h : s.Lost id slot l s') (hb : Backed s)
    (hn : s.correlator.mailboxes.length ≤ s'.correlator.mailboxes.length)
    (hl : s.correlator.slots.lookup id = some slot) (hm : Move s' l' s'') :
    s.Lost id slot (l ++ l') s'' where
  absent e he ht := by
    have hlt := hb.lt_of_lookup hl
    exact h.absent e (lt_of_mem_slots_move hm he (by omega)) ht
  why := h.why.imp (·.move hm) fun ⟨w, hw, hi, hg⟩ => ⟨w, hw, hi, fun hx => by
    have hlt := hb.pending_lt w hw
    exact hg (lt_of_mem_pending_move hm hx (by omega))⟩

/-- **A slot stays in the registry** until it is taken out, or a request ends that is pending under
its id. -/
theorem Backed.fate (hb : Backed s) (hl : s.correlator.slots.lookup id = some slot)
    (hm : Moves s l s') :
    s.correlator.mailboxes.length ≤ s'.correlator.mailboxes.length ∧
      ((s.Remains id slot s' ∧ ¬ s'.Out l slot.ticket) ∨ s.Lost id slot l s') := by
  induction hm with
  | refl =>
    refine ⟨Nat.le_refl _, .inl ⟨⟨hl, fun _ _ => Iff.rfl⟩, ?_⟩⟩
    rintro (hx | ⟨e, -, hx⟩)
    · exact hb.ticket_not_mem_hands hl hx
    · cases hx
  | @tail s' s'' l l' hs hm ih =>
    obtain ⟨hn, hx⟩ := ih
    have hb' := hb.moves hs
    refine ⟨Nat.le_trans hn (length_move hm), ?_⟩
    rcases hx with ⟨⟨hl', hp⟩, ho⟩ | hx
    · rcases hb'.remains_or_lost hm hl' with ⟨hl'', hp'⟩ | ⟨ha, hw⟩
      · refine .inl ⟨⟨hl'', fun w hi => (hp' w hi).trans (hp w hi)⟩, ?_⟩
        rintro (hx | ⟨e, he, hx⟩)
        · exact (hb'.move hm).ticket_not_mem_hands hl'' hx
        · rcases List.mem_append.1 hx with hx | hx
          · exact ho (.inr ⟨e, he, hx⟩)
          · exact hb'.ticket_not_mem_hands hl' (mem_hands_of_told hm he hx)
      · refine .inr ⟨ha, ?_⟩
        rcases hw with (hx | ⟨e, he, hx⟩) | ⟨w, hw, hi, hg⟩
        · exact .inl (.inl hx)
        · exact .inl (.inr ⟨e, he, List.mem_append_right _ hx⟩)
        · exact .inr ⟨w, (hp w hi).1 hw, hi, hg⟩
    · exact .inr (hx.move hb hn hl hm)

/-- A slot is still there exactly if it has not been taken out and no request has ended that was
pending under its id. -/
theorem Backed.lookup_iff (hb : Backed s) (hl : s.correlator.slots.lookup id = some slot)
    (hm : Moves s l s') :
    s'.correlator.slots.lookup id = some slot ↔
      ¬ s'.Out l slot.ticket ∧ ∀ w ∈ s.pending, w.id = id → w ∈ s'.pending := by
  rcases (hb.fate hl hm).2 with ⟨⟨hl', hp⟩, ho⟩ | ⟨ha, hw⟩
  · exact iff_of_true hl' ⟨ho, fun w hw hi => (hp w hi).2 hw⟩
  · refine iff_of_false (fun hx => ha _ (Entries.mem_of_lookup hx) rfl) fun ⟨ho, hp⟩ => ?_
    rcases hw with hx | ⟨w, hw, hi, hg⟩
    · exact ho hx
    · exact hg (hp w hw hi)

end Parties

namespace Desk

open Parties (Backed)

variable {d : Desk} {id : String} {slot : Slot Unit}

/-- The requests at a desk that are pending. -/
def pending (d : Desk) : List Waiter := (d.parties []).pending

theorem backed_empty : Backed (empty.parties []) := by
  constructor <;> simp [empty, parties, running, Correlator.empty, Parties.held, Parties.tickets]

theorem backed_run (ts : List Turn) : Backed ((empty.run ts).parties []) :=
  backed_empty.moves (moves_run tidy_empty ts).1

theorem reaches (h : Tidy d) (hb : Backed (d.parties []))
    (hl : d.correlator.slots.lookup id = some slot) (reply : Reply) :
    (d.act (.deliver id reply)).1 = .flag true ∧
      (d.turn (.act (.deliver id reply))).Awaits slot.ticket reply := by
  have he := Entries.mem_of_lookup hl
  have hv : (d.correlator.remove id).mailbox slot.ticket = .vacant := hb.vacant _ he
  have hd : d.correlator.deliver id reply = (d.correlator.remove id).fulfill slot reply := by
    unfold deliver take
    rw [hl]
  constructor
  · change Outcome.flag (d.correlator.deliver id reply).1 = _
    rw [hd, fulfill_eq_true.2 hv]
  · refine awaits_of_mem_held (moves_turn h _).2 ?_ ?_
    · exact List.mem_map.2 ⟨_, hb.waiter _ he, rfl⟩
    · change (d.correlator.deliver id reply).2.mailbox slot.ticket = _
      rw [hd, mailbox_fulfill, if_pos ⟨rfl, hv⟩]

/-- How a slot in the registry of a desk fares. Its request is pending. Whatever happens, it stays
exactly if it is not taken out and no request ends that is pending under its id now, and as long as
it does, a reply reaches its request. So dropping a request leaves the slot alone exactly if the
request has another id. -/
structure Keeps (d : Desk) (id : String) (slot : Slot Unit) : Prop where
  pending : ⟨id, slot.ticket⟩ ∈ d.pending
  stays : ∀ ts, (d.run ts).correlator.slots.lookup id = some slot ↔
    ¬ ((d.run ts).parties []).Out (d.journal ts) slot.ticket ∧
      ∀ w ∈ d.pending, w.id = id → w ∈ (d.run ts).pending
  reached : ∀ ts reply, (d.run ts).correlator.slots.lookup id = some slot →
    ((d.run ts).act (.deliver id reply)).1 = .flag true ∧
      ((d.run ts).turn (.act (.deliver id reply))).Awaits slot.ticket reply
  spared : ∀ name w, d.waiters.lookup name = some w →
    ((d.turn (.act (.dropPending name))).correlator.slots.lookup id = some slot ↔ w.id ≠ id)

theorem lookup_dropPending {name : String} {w : Waiter} (h : d.waiters.lookup name = some w)
    (id : String) : (d.turn (.act (.dropPending name))).correlator.slots.lookup id =
      if id = w.id then none else d.correlator.slots.lookup id := by
  unfold turn act
  dsimp only
  rw [h]
  exact lookup_leave _ _ _

/-- **Who clears the slot of a registration**, in every run. -/
theorem keeps {ts : List Turn} (hl : (empty.run ts).correlator.slots.lookup id = some slot) :
    (empty.run ts).Keeps id slot := by
  have hb := backed_run ts
  have ht := (moves_run tidy_empty ts).2
  refine ⟨hb.waiter _ (Entries.mem_of_lookup hl), fun ts' => hb.lookup_iff hl (moves_run ht ts').1,
    fun ts' reply hl' => ?_, fun name w hw => ?_⟩
  · obtain ⟨hm, ht'⟩ := moves_run ht ts'
    exact reaches ht' (hb.moves hm) hl' reply
  · rw [lookup_dropPending hw]
    by_cases hi : id = w.id
    · simp [hi]
    · simpa [hi, hl] using Ne.symm hi

/-- The id "1" is registered again after its slot has been taken, while the first request is still
pending. -/
def again : List Turn :=
  [.act (.register "1" "a" false), .act (.take "1" "s"), .act (.register "1" "b" false),
    .act (.register "2" "c" false)]

/-- What happens at a desk where the first request of "1" stays. -/
theorem keeps_again : (empty.run again).correlator.slots.lookup "1" = some ⟨1, none⟩ ∧
    (empty.run again).Keeps "1" ⟨1, none⟩ :=
  ⟨rfl, keeps rfl⟩

/-- The end of an earlier request of the same id takes the slot of the later one: a reply does not
reach its waiter, which is told that the connection is closed. -/
theorem struck_by_predecessor :
    (empty.run again).correlator.slots.lookup "1" = some ⟨1, none⟩ ∧
      (empty.run again).waiters.lookup "a" = some ⟨"1", 0⟩ ∧
      (empty.run again).waiters.lookup "b" = some ⟨"1", 1⟩ ∧
      ((empty.run (again ++ [.act (.dropPending "a")])).act (.deliver "1" ⟨.json, []⟩)).1 =
        .flag false ∧
      ((empty.run (again ++ [.act (.dropPending "a")])).act (.wait "b" 5)).1 =
        .ended (.error .connectionClosed) :=
  ⟨rfl, rfl, rfl, rfl, rfl⟩

end Desk

end DocWire.Correlator
