import Mathlib.Data.List.Nodup
import Mathlib.Data.List.Perm.Subperm
import DocWire.Proofs.Correlator.Operations
import DocWire.Proofs.Entries

/-! # The parties to a correlator

Around a correlator there are pending requests, slots that have been taken out, and waits that have
ended (`Parties`); a request and a slot are used up by what is done with them. Whatever is done comes
down to a few moves, and each move tells what it means for a registration (`Move`). For every
registration, what has been told of its slot, the state of its mailbox and what its wait has come to
fit together in one of six ways (`Course`). Every move keeps to them as long as no id is registered
twice (`Sound.move`). -/

namespace DocWire

namespace Correlator

variable {κ : Type}

/-- What is told of a registration: a reply has been handed to its slot, which tells whether a
waiter was there (`given`), or the slot is gone without one (`destroyed`); its request has been
dropped, or the wait for it given up (`dropped`), or the wait, which had time until `due`, has come
back with a result. -/
inductive Event where
  | registered (id : String)
  | given (reply : Reply) (found : Bool)
  | destroyed
  | dropped
  | returned (r : Except Failure Reply) (due : Nat)

/-- Whether an event is about the slot of a registration. -/
def Event.ofSlot : Event → Bool
  | .given _ _ | .destroyed => true
  | _ => false

/-- The ids that have been registered, in order. -/
def ids (j : List (Nat × Event)) : List String :=
  j.filterMap fun
    | (_, .registered id) => some id
    | _ => none

/-- What has been told of the slot of a registration. -/
def slotEvents (j : List (Nat × Event)) (t : Nat) : List Event :=
  (j.filter fun e => e.1 == t && e.2.ofSlot).map (·.2)

/-- A wait that has ended. -/
structure Ending where
  ticket : Nat
  result : Except Failure Reply
  due : Nat

/-- A correlator with what there is around it: the pending requests, whether they are waited for or
not, the slots that have been taken out, and the waits that have ended. -/
structure Parties (κ : Type) where
  correlator : Correlator κ
  pending : List Waiter
  hands : List (Slot κ)
  endings : List Ending
  now : Nat

namespace Parties

/-- The registrations whose requests are pending. -/
def held (s : Parties κ) : List Nat := s.pending.map (·.ticket)

/-- The registrations whose slots have not been used up. -/
def tickets (s : Parties κ) : List Nat :=
  s.correlator.slots.map (·.2.ticket) ++ s.hands.map (·.ticket)

/-- The wait of a registration has ended with a result. -/
def Returns (s : Parties κ) (j : List (Nat × Event)) (t : Nat) (r : Except Failure Reply)
    (due : Nat) : Prop :=
  ⟨t, r, due⟩ ∈ s.endings ∨ (t, .returned r due) ∈ j

end Parties

/-- What the parties to a correlator can do, with what is told of it. In `close` all slots are
taken, and no more will be made. A wait that has ended is asked for in `report`, and given up in
`forget`. Time goes by in `aside`. -/
inductive Move : Parties κ → List (Nat × Event) → Parties κ → Prop
  | register {s : Parties κ} {id : String} {sub : Option κ} {w : Waiter} {c' : Correlator κ}
      (h : s.correlator.register id sub = .ok (w, c')) :
      Move s [(w.ticket, .registered id)] { s with correlator := c', pending := w :: s.pending }
  | take {s : Parties κ} {id : String} {slot : Slot κ}
      (h : s.correlator.slots.lookup id = some slot) :
      Move s [] { s with correlator := s.correlator.remove id, hands := slot :: s.hands }
  | close (s : Parties κ) :
      Move s [] { s with
        correlator := { s.correlator with slots := [], closed := true }
        hands := s.correlator.slots.map (·.2) ++ s.hands }
  | give {s : Parties κ} {slot : Slot κ} {rest : List (Slot κ)} (reply : Reply)
      (h : s.hands.Perm (slot :: rest)) :
      Move s [(slot.ticket, .given reply (s.correlator.fulfill slot reply).1)]
        { s with correlator := (s.correlator.fulfill slot reply).2, hands := rest }
  | destroy {s : Parties κ} {slot : Slot κ} {rest : List (Slot κ)}
      (h : s.hands.Perm (slot :: rest)) :
      Move s [(slot.ticket, .destroyed)]
        { s with correlator := s.correlator.dropSlot slot, hands := rest }
  | drop {s : Parties κ} {w : Waiter} {rest : List Waiter} (h : s.pending.Perm (w :: rest)) :
      Move s [(w.ticket, .dropped)]
        { s with correlator := s.correlator.leave w, pending := rest }
  | finish {s : Parties κ} {w : Waiter} {rest : List Waiter} {due : Nat} {bound : Span}
      {r : Except Failure Reply} (h : s.pending.Perm (w :: rest))
      (hr : s.correlator.outcome? w (due ≤ s.now) bound = some r) :
      Move s [] { s with
        correlator := s.correlator.leave w
        pending := rest
        endings := ⟨w.ticket, r, due⟩ :: s.endings }
  | report {s : Parties κ} {e : Ending} {rest : List Ending} (h : s.endings.Perm (e :: rest)) :
      Move s [(e.ticket, .returned e.result e.due)] { s with endings := rest }
  | forget {s : Parties κ} {e : Ending} {rest : List Ending} (h : s.endings.Perm (e :: rest)) :
      Move s [(e.ticket, .dropped)] { s with endings := rest }
  | aside {s s' : Parties κ} (hc : s'.correlator = s.correlator)
      (hp : s'.pending.Perm s.pending) (hh : s'.hands.Perm s.hands)
      (he : s'.endings.Perm s.endings) (hn : s.now ≤ s'.now) : Move s [] s'

/-- A series of moves, with all that is told of it. -/
inductive Moves : Parties κ → List (Nat × Event) → Parties κ → Prop
  | refl (s : Parties κ) : Moves s [] s
  | tail {s s' s'' : Parties κ} {j l : List (Nat × Event)} (h : Moves s j s') (hm : Move s' l s'') :
      Moves s (j ++ l) s''

/-! ### The course of a registration -/

/-- What a wait can come to when it ends, by its mailbox. -/
def Mailbox.Yields (late : Prop) (r : Except Failure Reply) : Mailbox → Prop
  | .vacant => (∃ bound, r = .error (.timeout bound)) ∧ late
  | .filled reply => r = .ok reply
  | .orphaned | .abandoned => r = .error .connectionClosed

theorem yields_of_outcome? {c : Correlator κ} {w : Waiter} {due now : Nat} {bound : Span}
    {r : Except Failure Reply} (h : c.outcome? w (due ≤ now) bound = some r) :
    (c.mailbox w.ticket).Yields (due ≤ now) r := by
  rcases outcome?_eq_some h with ⟨reply, hm, rfl⟩ | ⟨hm | hm, rfl⟩ | ⟨hm, he, rfl⟩
  · rw [hm]
    rfl
  · rw [hm]
    rfl
  · rw [hm]
    rfl
  · rw [hm]
    exact ⟨⟨bound, rfl⟩, of_decide_eq_true he⟩

/-- How a registration stands, by its mailbox, whether its request is pending, whether its slot is
there, what its wait has come to and what has been told of its slot. When the request is gone, the
slot had been fulfilled (`answered`) or destroyed (`closed`), or nothing had happened to it
(`left`). -/
inductive Course (m : Mailbox) (held alive : Prop) (returns : Except Failure Reply → Nat → Prop)
    (now : Nat) : List Event → Prop
  | vacant (hm : m = .vacant) (hh : held) (ha : alive) (hr : ∀ r due, ¬ returns r due) :
      Course m held alive returns now []
  | filled {reply : Reply} (hm : m = .filled reply) (hh : held) (ha : ¬ alive)
      (hr : ∀ r due, ¬ returns r due) : Course m held alive returns now [.given reply true]
  | orphaned (hm : m = .orphaned) (hh : held) (ha : ¬ alive) (hr : ∀ r due, ¬ returns r due) :
      Course m held alive returns now [.destroyed]
  | answered {reply : Reply} (hm : m = .abandoned) (hh : ¬ held) (ha : ¬ alive)
      (hr : ∀ r due, returns r due → r = .ok reply) :
      Course m held alive returns now [.given reply true]
  | closed (hm : m = .abandoned) (hh : ¬ held) (ha : ¬ alive)
      (hr : ∀ r due, returns r due → r = .error .connectionClosed) :
      Course m held alive returns now [.destroyed]
  | left {es : List Event} (hm : m = .abandoned) (hh : ¬ held)
      (hr : ∀ r due, returns r due → (∃ bound, r = .error (.timeout bound)) ∧ due ≤ now)
      (he : es = [] ∨ ¬ alive ∧ (es = [.destroyed] ∨ ∃ reply, es = [.given reply false])) :
      Course m held alive returns now es

namespace Course

variable {m m' : Mailbox} {held held' alive alive' : Prop} {now now' : Nat} {es : List Event}
  {returns returns' : Except Failure Reply → Nat → Prop}

theorem mono (h : Course m held alive returns now es) (hm : m' = m) (hh : held' ↔ held)
    (ha : alive' ↔ alive) (hr : ∀ r due, returns' r due → returns r due) (hn : now ≤ now') :
    Course m' held' alive' returns' now' es := by
  cases h with
  | vacant hm' hh' ha' hr' =>
    exact .vacant (hm.trans hm') (hh.2 hh') (ha.2 ha') fun r due hx => hr' r due (hr r due hx)
  | filled hm' hh' ha' hr' =>
    exact .filled (hm.trans hm') (hh.2 hh') (mt ha.1 ha') fun r due hx => hr' r due (hr r due hx)
  | orphaned hm' hh' ha' hr' =>
    exact .orphaned (hm.trans hm') (hh.2 hh') (mt ha.1 ha') fun r due hx => hr' r due (hr r due hx)
  | answered hm' hh' ha' hr' =>
    exact .answered (hm.trans hm') (mt hh.1 hh') (mt ha.1 ha') fun r due hx =>
      hr' r due (hr r due hx)
  | closed hm' hh' ha' hr' =>
    exact .closed (hm.trans hm') (mt hh.1 hh') (mt ha.1 ha') fun r due hx =>
      hr' r due (hr r due hx)
  | left hm' hh' hr' he =>
    refine .left (hm.trans hm') (mt hh.1 hh') (fun r due hx => ?_) ?_
    · obtain ⟨hb, hd⟩ := hr' r due (hr r due hx)
      exact ⟨hb, Nat.le_trans hd hn⟩
    · exact he.imp_right fun ⟨ha', he⟩ => ⟨mt ha.1 ha', he⟩

theorem give (h : Course m held alive returns now es) (ha : alive) (reply : Reply)
    (hm : m' = if m = .vacant then .filled reply else m) (ha' : ¬ alive') :
    Course m' held alive' returns now (es ++ [.given reply (decide (m = .vacant))]) := by
  cases h with
  | vacant hm' hh' _ hr' =>
    subst hm'
    exact .filled hm hh' ha' hr'
  | filled _ _ hn => exact absurd ha hn
  | orphaned _ _ hn => exact absurd ha hn
  | answered _ _ hn => exact absurd ha hn
  | closed _ _ hn => exact absurd ha hn
  | left hm' hh' hr' he =>
    subst hm'
    rcases he with rfl | ⟨hn, -⟩
    · exact .left hm hh' hr' (.inr ⟨ha', .inr ⟨reply, rfl⟩⟩)
    · exact absurd ha hn

theorem destroy (h : Course m held alive returns now es) (ha : alive)
    (hm : m' = if m = .vacant then .orphaned else m) (ha' : ¬ alive') :
    Course m' held alive' returns now (es ++ [.destroyed]) := by
  cases h with
  | vacant hm' hh' _ hr' =>
    subst hm'
    exact .orphaned hm hh' ha' hr'
  | filled _ _ hn => exact absurd ha hn
  | orphaned _ _ hn => exact absurd ha hn
  | answered _ _ hn => exact absurd ha hn
  | closed _ _ hn => exact absurd ha hn
  | left hm' hh' hr' he =>
    subst hm'
    rcases he with rfl | ⟨hn, -⟩
    · exact .left hm hh' hr' (.inr ⟨ha', .inl rfl⟩)
    · exact absurd ha hn

theorem leave (h : Course m held alive returns now es) (hh : held) (hm : m' = .abandoned)
    (hh' : ¬ held') (ha : alive' → alive)
    (hr : ∀ r due, returns' r due → returns r due ∨ m.Yields (due ≤ now) r) :
    Course m' held' alive' returns' now es := by
  cases h with
  | vacant hm' _ _ hr' =>
    subst hm'
    exact .left hm hh' (fun r due hx => (hr r due hx).resolve_left (hr' r due)) (.inl rfl)
  | filled hm' _ ha' hr' =>
    subst hm'
    exact .answered hm hh' (mt ha ha') fun r due hx => (hr r due hx).resolve_left (hr' r due)
  | orphaned hm' _ ha' hr' =>
    subst hm'
    exact .closed hm hh' (mt ha ha') fun r due hx => (hr r due hx).resolve_left (hr' r due)
  | answered _ hn _ _ => exact absurd hh hn
  | closed _ hn _ _ => exact absurd hh hn
  | left _ hn _ _ => exact absurd hh hn

/-- A slot is used up once. -/
theorem length_le_one (h : Course m held alive returns now es) : es.length ≤ 1 := by
  cases h with
  | vacant => exact Nat.zero_le _
  | left _ _ _ he =>
    rcases he with rfl | ⟨-, rfl | ⟨reply, rfl⟩⟩
    · exact Nat.zero_le _
    · exact Nat.le_refl _
    · exact Nat.le_refl _
  | _ => exact Nat.le_refl _

/-- A reply that was taken is in the mailbox until the wait comes back with it. -/
theorem of_accepted (h : Course m held alive returns now es) {reply : Reply}
    (he : .given reply true ∈ es) :
    (held → m = .filled reply) ∧ ∀ r due, returns r due → r = .ok reply := by
  cases h with
  | vacant => cases he
  | filled hm _ _ hr =>
    cases List.mem_singleton.1 he
    exact ⟨fun _ => hm, fun r due hx => absurd hx (hr r due)⟩
  | answered _ hh _ hr =>
    cases List.mem_singleton.1 he
    exact ⟨fun hx => absurd hx hh, hr⟩
  | orphaned => cases List.mem_singleton.1 he
  | closed => cases List.mem_singleton.1 he
  | left _ _ _ hx =>
    rcases hx with rfl | ⟨-, rfl | ⟨reply, rfl⟩⟩
    · cases he
    · cases List.mem_singleton.1 he
    · cases List.mem_singleton.1 he

/-- A reply is refused only by a request that has been given up. -/
theorem of_refused (h : Course m held alive returns now es) {reply : Reply}
    (he : .given reply false ∈ es) {r : Except Failure Reply} {due : Nat} (hr : returns r due) :
    ∃ bound, r = .error (.timeout bound) := by
  cases h with
  | left _ _ hx _ => exact (hx r due hr).1
  | vacant => cases he
  | _ => cases List.mem_singleton.1 he

/-- A wait that has timed out was due, and no reply has been taken for it. -/
theorem of_timeout (h : Course m held alive returns now es) {bound : Span} {due : Nat}
    (hr : returns (.error (.timeout bound)) due) :
    due ≤ now ∧ ∀ reply, .given reply true ∉ es := by
  cases h with
  | vacant _ _ _ hx => exact absurd hr (hx _ _)
  | filled _ _ _ hx => exact absurd hr (hx _ _)
  | orphaned _ _ _ hx => exact absurd hr (hx _ _)
  | answered _ _ _ hx => cases hx _ _ hr
  | closed _ _ _ hx => cases hx _ _ hr
  | left _ _ hx he =>
    refine ⟨(hx _ _ hr).2, fun reply hg => ?_⟩
    rcases he with rfl | ⟨-, rfl | ⟨reply, rfl⟩⟩
    · cases hg
    · cases List.mem_singleton.1 hg
    · cases List.mem_singleton.1 hg

/-- A wait that has failed has lost its slot. -/
theorem of_closed (h : Course m held alive returns now es) {due : Nat}
    (hr : returns (.error .connectionClosed) due) :
    .destroyed ∈ es ∧ ∀ reply, .given reply true ∉ es := by
  cases h with
  | vacant _ _ _ hx => exact absurd hr (hx _ _)
  | filled _ _ _ hx => exact absurd hr (hx _ _)
  | orphaned _ _ _ hx => exact absurd hr (hx _ _)
  | answered _ _ _ hx => cases hx _ _ hr
  | closed => exact ⟨by simp, by simp⟩
  | left _ _ hx _ =>
    obtain ⟨⟨bound, hb⟩, -⟩ := hx _ _ hr
    cases hb

end Course

/-! ### What every move keeps -/

variable {j l : List (Nat × Event)} {s s' : Parties κ} {t : Nat}

theorem ids_append : ids (j ++ l) = ids j ++ ids l := List.filterMap_append

@[simp] theorem slotEvents_nil : slotEvents [] t = [] := rfl

@[simp] theorem slotEvents_append : slotEvents (j ++ l) t = slotEvents j t ++ slotEvents l t := by
  simp [slotEvents]

@[simp] theorem slotEvents_singleton {k : Nat} {e : Event} :
    slotEvents [(k, e)] t = if k = t ∧ e.ofSlot = true then [e] else [] := by
  by_cases hk : k = t ∧ e.ofSlot = true
  · simp [slotEvents, hk]
  · have hb : ¬ ((k == t && e.ofSlot) = true) := by simpa using hk
    simp [slotEvents, hk, hb]

theorem slots_leave (c : Correlator κ) (w : Waiter) :
    (c.leave w).slots = (c.remove w.id).slots := by
  unfold leave take
  cases c.slots.lookup w.id with
  | none => rfl
  | some slot => exact slots_dropSlot _ _

/-- The parties to a correlator, and what has been told, fit together. Registrations are told of in
the order of their tickets, so the ids of the journal tell the id of every ticket. -/
structure Sound (j : List (Nat × Event)) (s : Parties κ) : Prop where
  size : s.correlator.mailboxes.length = (ids j).length
  keys : (s.correlator.slots.map (·.1)).Nodup
  held : s.held.Nodup
  tickets : s.tickets.Nodup
  named : ∀ w ∈ s.pending, (ids j)[w.ticket]? = some w.id
  listed : ∀ e ∈ s.correlator.slots, (ids j)[e.2.ticket]? = some e.1
  known : ∀ k ∈ s.tickets, k < (ids j).length
  ended : ∀ e ∈ s.endings, e.ticket < (ids j).length
  told : ∀ e ∈ j, e.1 < (ids j).length
  course : ∀ t < (ids j).length, Course (s.correlator.mailbox t) (t ∈ s.held) (t ∈ s.tickets)
    (s.Returns j t) s.now (slotEvents j t)
  kept : ∀ t < (ids j).length,
    t ∈ s.held ∨ (∃ r due, s.Returns j t r due) ∨ (t, .dropped) ∈ j

theorem nodup_of_subperm {α : Type} {xs ys : List α} (h : xs.Subperm ys) (hn : ys.Nodup) :
    xs.Nodup := by
  obtain ⟨zs, hp, hs⟩ := h
  exact hp.nodup_iff.1 (hn.sublist hs)

theorem map_subperm {α β : Type} {xs ys : List α} (f : α → β) (h : xs.Subperm ys) :
    (xs.map f).Subperm (ys.map f) := by
  obtain ⟨zs, hp, hs⟩ := h
  exact ⟨zs.map f, hp.map f, hs.map f⟩

namespace Sound

/-- A move that registers nothing and leaves no more than there was. -/
theorem next (h : Sound j s) (hi : ids l = [])
    (hz : s'.correlator.mailboxes.length = s.correlator.mailboxes.length)
    (hs : s'.correlator.slots.Sublist s.correlator.slots) (hp : s'.pending.Subperm s.pending)
    (ht : s'.tickets.Subperm s.tickets) (he : ∀ e ∈ s'.endings, e.ticket < (ids j).length)
    (hl : ∀ e ∈ l, e.1 < (ids j).length)
    (hc : ∀ t < (ids j).length, Course (s'.correlator.mailbox t) (t ∈ s'.held) (t ∈ s'.tickets)
      (s'.Returns (j ++ l) t) s'.now (slotEvents j t ++ slotEvents l t))
    (hk : ∀ t < (ids j).length,
      t ∈ s'.held ∨ (∃ r due, s'.Returns (j ++ l) t r due) ∨ (t, .dropped) ∈ j ++ l) :
    Sound (j ++ l) s' := by
  have hj : ids (j ++ l) = ids j := by rw [ids_append, hi, List.append_nil]
  constructor
  · rw [hj, hz, h.size]
  · exact h.keys.sublist (hs.map _)
  · exact nodup_of_subperm (map_subperm _ hp) h.held
  · exact nodup_of_subperm ht h.tickets
  · rw [hj]
    exact fun w hw => h.named w (hp.subset hw)
  · rw [hj]
    exact fun e he => h.listed e (hs.subset he)
  · rw [hj]
    exact fun k hk => h.known k (ht.subset hk)
  · rwa [hj]
  · rw [hj]
    exact fun e he => (List.mem_append.1 he).elim (h.told e) (hl e)
  · rw [hj]
    intro t ht
    rw [slotEvents_append]
    exact hc t ht
  · rwa [hj]

theorem lt_of_mem_held (h : Sound j s) (ht : t ∈ s.held) : t < (ids j).length := by
  obtain ⟨w, hw, rfl⟩ := List.mem_map.1 ht
  exact (List.getElem?_eq_some_iff.1 (h.named w hw)).choose

theorem ticket_fresh (h : Sound j s) {k : Nat} (hk : k < (ids j).length) :
    k ≠ s.correlator.mailboxes.length := Nat.ne_of_lt (h.size ▸ hk)

theorem not_returns (h : Sound j s) (r : Except Failure Reply) (due : Nat) :
    ¬ s.Returns j s.correlator.mailboxes.length r due := by
  rintro (hx | hx)
  · exact h.ticket_fresh (h.ended _ hx) rfl
  · exact h.ticket_fresh (h.told _ hx) rfl

theorem slotEvents_fresh (h : Sound j s) : slotEvents j s.correlator.mailboxes.length = [] := by
  unfold slotEvents
  rw [List.map_eq_nil_iff, List.filter_eq_nil_iff]
  intro e he hx
  exact h.ticket_fresh (h.told e he) (by simpa using (Bool.and_eq_true_iff.1 hx).1)

end Sound

/-- The parties once a request has been registered. -/
def Parties.withRequest (s : Parties κ) (id : String) (sub : Option κ) : Parties κ :=
  { s with
    correlator := { s.correlator with
      slots := s.correlator.slots ++ [(id, ⟨s.correlator.mailboxes.length, sub⟩)]
      mailboxes := s.correlator.mailboxes ++ [.vacant] }
    pending := ⟨id, s.correlator.mailboxes.length⟩ :: s.pending }

variable {id : String} {sub : Option κ}

theorem tickets_withRequest (s : Parties κ) (id : String) (sub : Option κ) :
    (s.withRequest id sub).tickets.Perm (s.correlator.mailboxes.length :: s.tickets) := by
  unfold Parties.tickets Parties.withRequest
  rw [List.map_append, List.append_assoc]
  exact List.perm_middle

theorem held_withRequest (s : Parties κ) (id : String) (sub : Option κ) :
    (s.withRequest id sub).held = s.correlator.mailboxes.length :: s.held := rfl

theorem returns_withRequest {k : Nat} {r : Except Failure Reply} {due : Nat} :
    (s.withRequest id sub).Returns (j ++ [(k, .registered id)]) t r due ↔ s.Returns j t r due := by
  have hx : (t, .returned r due) ∈ j ++ [(k, .registered id)] ↔ (t, .returned r due) ∈ j := by simp
  exact or_congr Iff.rfl hx

namespace Sound

/-- Every registration is where it was, and the new one has everything before it. -/
theorem course_withRequest (h : Sound j s) {w : Waiter}
    (hr : s.correlator.register id sub = .ok (w, (s.withRequest id sub).correlator))
    (ht : t < (ids j).length + 1) :
    Course ((s.withRequest id sub).correlator.mailbox t) (t ∈ (s.withRequest id sub).held)
      (t ∈ (s.withRequest id sub).tickets)
      ((s.withRequest id sub).Returns (j ++ [(s.correlator.mailboxes.length, .registered id)]) t)
      (s.withRequest id sub).now
      (slotEvents (j ++ [(s.correlator.mailboxes.length, .registered id)]) t) := by
  obtain ⟨-, -, rfl, -⟩ := register_ok hr
  have hp := tickets_withRequest s id sub
  have hsl : slotEvents (j ++ [(s.correlator.mailboxes.length, .registered id)]) t =
      slotEvents j t := by simp [Event.ofSlot]
  rw [hsl, mailbox_register hr, held_withRequest]
  by_cases htn : t = s.correlator.mailboxes.length
  · subst htn
    rw [h.slotEvents_fresh]
    exact .vacant (by simp) (by simp) (hp.mem_iff.2 (by simp))
      fun r due hx => h.not_returns r due (returns_withRequest.1 hx)
  · have htl : t < (ids j).length := by
      have hz := h.size
      omega
    exact (h.course t htl).mono (by simp [htn]) (by simp [htn]) (by rw [hp.mem_iff]; simp [htn])
      (fun r due hx => returns_withRequest.1 hx) (Nat.le_refl _)

theorem withRequest (h : Sound j s) {w : Waiter}
    (hr : s.correlator.register id sub = .ok (w, (s.withRequest id sub).correlator)) :
    Sound (j ++ [(s.correlator.mailboxes.length, .registered id)]) (s.withRequest id sub) := by
  obtain ⟨-, hn, -, -⟩ := register_ok hr
  have hp := tickets_withRequest s id sub
  have hi : ids (j ++ [(s.correlator.mailboxes.length, .registered id)]) = ids j ++ [id] := by
    rw [ids_append]
    rfl
  have hl : (ids (j ++ [(s.correlator.mailboxes.length, .registered id)])).length =
      (ids j).length + 1 := by
    rw [hi, List.length_append, List.length_singleton]
  have hold : ∀ {k : Nat} {a : String}, (ids j)[k]? = some a → (ids j ++ [id])[k]? = some a :=
    fun hk => by
      rw [List.getElem?_append_left (List.getElem?_eq_some_iff.1 hk).choose]
      exact hk
  have hnew : (ids j ++ [id])[s.correlator.mailboxes.length]? = some id := by
    rw [h.size, List.getElem?_concat_length]
  have hz := h.size
  constructor
  · rw [hl, ← h.size]
    simp [Parties.withRequest]
  · change (List.map _ (s.correlator.slots ++ [_])).Nodup
    rw [List.map_append, List.nodup_append]
    refine ⟨h.keys, by simp, fun a ha b hb => ?_⟩
    obtain rfl := List.mem_singleton.1 hb
    rintro rfl
    obtain ⟨e, he, rfl⟩ := List.mem_map.1 ha
    have hx := List.lookup_eq_none_iff.1 hn e he
    simp at hx
  · exact List.nodup_cons.2 ⟨fun hx => h.ticket_fresh (h.lt_of_mem_held hx) rfl, h.held⟩
  · exact hp.nodup_iff.2
      (List.nodup_cons.2 ⟨fun hx => h.ticket_fresh (h.known _ hx) rfl, h.tickets⟩)
  · rw [hi]
    intro w hw
    rcases List.mem_cons.1 hw with rfl | hw
    · exact hnew
    · exact hold (h.named w hw)
  · rw [hi]
    intro e he
    rcases List.mem_append.1 he with he | he
    · exact hold (h.listed e he)
    · rw [List.mem_singleton.1 he]
      exact hnew
  · rw [hl]
    intro k hk
    rcases List.mem_cons.1 (hp.subset hk) with rfl | hk
    · omega
    · exact Nat.lt_succ_of_lt (h.known k hk)
  · rw [hl]
    exact fun e he => Nat.lt_succ_of_lt (h.ended e he)
  · rw [hl]
    intro e he
    rcases List.mem_append.1 he with he | he
    · exact Nat.lt_succ_of_lt (h.told e he)
    · rw [List.mem_singleton.1 he]
      dsimp only
      omega
  · rw [hl]
    exact fun t ht => h.course_withRequest hr ht
  · rw [hl]
    intro t ht
    by_cases htn : t = s.correlator.mailboxes.length
    · exact .inl (by simp [held_withRequest, htn])
    · rcases h.kept t (by omega) with hx | ⟨r, due, hx⟩ | hx
      · exact .inl (List.mem_cons_of_mem _ hx)
      · exact .inr (.inl ⟨r, due, returns_withRequest.2 hx⟩)
      · exact .inr (.inr (List.mem_append_left _ hx))

theorem register (h : Sound j s) {w : Waiter} {c' : Correlator κ}
    (hr : s.correlator.register id sub = .ok (w, c')) :
    Sound (j ++ [(w.ticket, .registered id)])
      { s with correlator := c', pending := w :: s.pending } := by
  obtain ⟨-, -, rfl, rfl⟩ := register_ok hr
  exact h.withRequest hr

/-- What is told of one registration changes nothing for what has been told. -/
theorem kept_append (h : Sound j s) (hh : ∀ {k}, k ∈ s.held → k ∈ s'.held ∨
      (∃ r due, s'.Returns (j ++ l) k r due) ∨ (k, .dropped) ∈ j ++ l)
    (he : ∀ e ∈ s.endings, e ∈ s'.endings ∨ (e.ticket, .returned e.result e.due) ∈ l ∨
      (e.ticket, .dropped) ∈ l) {t : Nat} (ht : t < (ids j).length) :
    t ∈ s'.held ∨ (∃ r due, s'.Returns (j ++ l) t r due) ∨ (t, .dropped) ∈ j ++ l := by
  rcases h.kept t ht with hx | ⟨r, due, hx | hx⟩ | hx
  · exact hh hx
  · rcases he _ hx with hx | hx | hx
    · exact .inr (.inl ⟨r, due, .inl hx⟩)
    · exact .inr (.inl ⟨r, due, .inr (List.mem_append_right _ hx)⟩)
    · exact .inr (.inr (List.mem_append_right _ hx))
  · exact .inr (.inl ⟨r, due, .inr (List.mem_append_left _ hx)⟩)
  · exact .inr (.inr (List.mem_append_left _ hx))

/-- A move of which nothing is told and that leaves all ends where they are. -/
theorem still (h : Sound j s)
    (hz : s'.correlator.mailboxes.length = s.correlator.mailboxes.length)
    (hs : s'.correlator.slots.Sublist s.correlator.slots)
    (hm : ∀ t, s'.correlator.mailbox t = s.correlator.mailbox t)
    (hp : s'.pending.Perm s.pending) (ht : s'.tickets.Perm s.tickets)
    (he : s'.endings.Perm s.endings) (hn : s.now ≤ s'.now) : Sound j s' := by
  have hheld : ∀ {t}, t ∈ s'.held ↔ t ∈ s.held := (hp.map _).mem_iff
  rw [← List.append_nil j]
  refine h.next rfl hz hs hp.subperm ht.subperm (fun e hx => h.ended e (he.mem_iff.1 hx)) nofun
    (fun t hl => ?_)
    fun t hl => h.kept_append (fun hx => .inl (hheld.2 hx)) (fun e hx => .inl (he.mem_iff.2 hx)) hl
  rw [slotEvents_nil, List.append_nil, List.append_nil]
  exact (h.course t hl).mono (hm t) hheld ht.mem_iff (fun r due hx => hx.imp_left he.mem_iff.1) hn

theorem take (h : Sound j s) {id : String} {slot : Slot κ}
    (hl : s.correlator.slots.lookup id = some slot) :
    Sound j { s with correlator := s.correlator.remove id, hands := slot :: s.hands } := by
  have hp := ((Entries.perm_of_lookup h.keys hl).map (·.2.ticket)).append_right
    (s.hands.map (·.ticket))
  exact h.still rfl List.filter_sublist (fun _ => rfl) (.refl _)
    (List.perm_middle.trans hp.symm) (.refl _) (Nat.le_refl _)

theorem close (h : Sound j s) :
    Sound j { s with
      correlator := { s.correlator with slots := [], closed := true }
      hands := s.correlator.slots.map (·.2) ++ s.hands } := by
  refine h.still rfl (List.nil_sublist _) (fun _ => rfl) (.refl _) ?_ (.refl _) (Nat.le_refl _)
  simp [Parties.tickets, Function.comp_def]

theorem use (h : Sound j s) {slot : Slot κ} {rest : List (Slot κ)} {c' : Correlator κ} {e : Event}
    (hh : s.hands.Perm (slot :: rest)) (he : e.ofSlot = true)
    (hz : c'.mailboxes.length = s.correlator.mailboxes.length)
    (hs : c'.slots = s.correlator.slots)
    (hm : ∀ t ≠ slot.ticket, c'.mailbox t = s.correlator.mailbox t)
    (hc : ∀ {alive' : Prop} {held returns now es}, ¬ alive' →
      Course (s.correlator.mailbox slot.ticket) held (slot.ticket ∈ s.tickets) returns now es →
      Course (c'.mailbox slot.ticket) held alive' returns now (es ++ [e])) :
    Sound (j ++ [(slot.ticket, e)]) { s with correlator := c', hands := rest } := by
  have hp : s.tickets.Perm (slot.ticket ::
      Parties.tickets { s with correlator := c', hands := rest }) := by
    unfold Parties.tickets
    rw [hs]
    exact ((hh.map _).append_left _).trans List.perm_middle
  have hn := List.nodup_cons.1 (hp.nodup_iff.1 h.tickets)
  have hne : ∀ {r due t}, (t, .returned r due) ≠ (slot.ticket, e) := by
    rintro r due t hx
    cases hx
    cases he
  have hi : ids [(slot.ticket, e)] = [] := by
    cases e with
    | registered id => cases he
    | _ => rfl
  refine h.next hi hz (by rw [hs]) (.refl _) ((List.sublist_cons_self _ _).subperm.trans
    hp.symm.subperm) h.ended (fun p hx => ?_) (fun t ht => ?_) (fun t ht => ?_)
  · rw [List.mem_singleton.1 hx]
    exact h.known _ (hp.mem_iff.2 (by simp))
  · have hr : ∀ r due, Parties.Returns { s with correlator := c', hands := rest }
        (j ++ [(slot.ticket, e)]) t r due → s.Returns j t r due := fun r due hx => by
      refine hx.imp_right fun hx => ?_
      rcases List.mem_append.1 hx with hx | hx
      · exact hx
      · exact absurd (List.mem_singleton.1 hx) hne
    by_cases htn : t = slot.ticket
    · subst htn
      rw [slotEvents_singleton, if_pos ⟨rfl, he⟩]
      exact hc hn.1 ((h.course slot.ticket ht).mono rfl Iff.rfl Iff.rfl hr (Nat.le_refl _))
    · rw [slotEvents_singleton, if_neg fun hx => htn hx.1.symm, List.append_nil]
      refine (h.course t ht).mono (hm t htn) Iff.rfl ?_ hr (Nat.le_refl _)
      rw [hp.mem_iff]
      simp [htn]
  · exact h.kept_append (fun hx => .inl hx) (fun e hx => .inl hx) ht

theorem give (h : Sound j s) {slot : Slot κ} {rest : List (Slot κ)} (reply : Reply)
    (hh : s.hands.Perm (slot :: rest)) :
    Sound (j ++ [(slot.ticket, .given reply (s.correlator.fulfill slot reply).1)])
      { s with correlator := (s.correlator.fulfill slot reply).2, hands := rest } := by
  have hf : (s.correlator.fulfill slot reply).1 =
      decide (s.correlator.mailbox slot.ticket = .vacant) := by
    rw [Bool.eq_iff_iff, fulfill_eq_true, decide_eq_true_eq]
  have hp : slot.ticket ∈ s.tickets := by
    refine List.mem_append_right _ (List.mem_map.2 ⟨slot, hh.mem_iff.2 (by simp), rfl⟩)
  refine h.use hh rfl ?_ (slots_fulfill _ _ _) (fun t ht => ?_) (fun ha hc => ?_)
  · unfold fulfill setMailbox
    split <;> simp
  · rw [mailbox_fulfill]
    simp [ht]
  · rw [hf]
    exact hc.give hp reply (by rw [mailbox_fulfill]; simp) ha

theorem destroy (h : Sound j s) {slot : Slot κ} {rest : List (Slot κ)}
    (hh : s.hands.Perm (slot :: rest)) :
    Sound (j ++ [(slot.ticket, .destroyed)])
      { s with correlator := s.correlator.dropSlot slot, hands := rest } := by
  have hp : slot.ticket ∈ s.tickets := by
    refine List.mem_append_right _ (List.mem_map.2 ⟨slot, hh.mem_iff.2 (by simp), rfl⟩)
  refine h.use hh rfl (length_dropSlot _ _) (slots_dropSlot _ _) (fun t ht => ?_)
    (fun ha hc => ?_)
  · rw [mailbox_dropSlot]
    simp [ht]
  · exact hc.destroy hp (by rw [mailbox_dropSlot]; simp) ha

/-- Nobody else loses its slot when a request is pending no more: no other registration has its
id. -/
theorem leave_others (h : Sound j s) (hn : (ids j).Nodup) {w : Waiter} (hw : w ∈ s.pending)
    (ht : t ≠ w.ticket) : (s.correlator.leave w).mailbox t = s.correlator.mailbox t ∧
      (t ∈ s.correlator.slots.map (·.2.ticket) →
        t ∈ (s.correlator.leave w).slots.map (·.2.ticket)) := by
  have hother : ∀ e ∈ s.correlator.slots, e.1 = w.id → e.2.ticket = w.ticket := fun e hs he => by
    have hlt := h.known e.2.ticket (List.mem_append_left _ (List.mem_map.2 ⟨e, hs, rfl⟩))
    exact (List.getElem?_inj hlt hn).1 ((h.listed e hs).trans (he ▸ (h.named w hw).symm))
  constructor
  · rw [mailbox_leave, if_neg ht, if_neg]
    rintro ⟨⟨slot, hs, rfl⟩, -⟩
    exact ht (hother _ (Entries.mem_of_lookup hs) rfl)
  · intro hx
    obtain ⟨e, hs, rfl⟩ := List.mem_map.1 hx
    refine List.mem_map.2 ⟨e, ?_, rfl⟩
    rw [slots_leave]
    refine List.mem_filter.2 ⟨hs, ?_⟩
    simpa using fun he => ht (hother e hs he)

theorem depart (h : Sound j s) (hn : (ids j).Nodup) {w : Waiter} {rest : List Waiter}
    {es : List Ending} (hw : s.pending.Perm (w :: rest)) (hi : ids l = [])
    (hl : ∀ e ∈ l, e.1 = w.ticket ∧ e.2.ofSlot = false)
    (he : ∀ e ∈ es, e.ticket < (ids j).length)
    (hr : ∀ {t r due},
      Parties.Returns { s with correlator := s.correlator.leave w, pending := rest, endings := es }
        (j ++ l) t r due →
      s.Returns j t r due ∨ t = w.ticket ∧ (s.correlator.mailbox w.ticket).Yields (due ≤ s.now) r)
    (hes : ∀ e ∈ s.endings, e ∈ es)
    (hx : (∃ r due, ⟨w.ticket, r, due⟩ ∈ es) ∨ (w.ticket, .dropped) ∈ l) :
    Sound (j ++ l)
      { s with correlator := s.correlator.leave w, pending := rest, endings := es } := by
  have hwp : w ∈ s.pending := hw.mem_iff.2 (by simp)
  have hheld : s.held.Perm (w.ticket :: rest.map (·.ticket)) := hw.map _
  have hgone := (List.nodup_cons.1 (hheld.nodup_iff.1 h.held)).1
  have hss : (s.correlator.leave w).slots.Sublist s.correlator.slots := by
    rw [slots_leave]
    exact List.filter_sublist
  have hts : (Parties.tickets { s with
      correlator := s.correlator.leave w, pending := rest, endings := es }).Sublist s.tickets :=
    (hss.map _).append_right _
  have hse : ∀ t, slotEvents l t = [] := fun t => by
    unfold slotEvents
    rw [List.map_eq_nil_iff, List.filter_eq_nil_iff]
    intro e he
    simp [(hl e he).2]
  refine h.next hi (length_leave _ _) hss ((List.sublist_cons_self _ _).subperm.trans
    hw.symm.subperm) hts.subperm he
    (fun e hx => (hl e hx).1 ▸ h.lt_of_mem_held (List.mem_map.2 ⟨w, hwp, rfl⟩)) (fun t ht => ?_)
    (fun t ht => h.kept_append (fun {k} hk => ?_) (fun e he => .inl (hes e he)) ht)
  · rw [hse, List.append_nil]
    by_cases htw : t = w.ticket
    · subst htw
      refine (h.course w.ticket ht).leave (hheld.mem_iff.2 (by simp)) ?_ hgone
        (fun hx => hts.subset hx) (fun r due hx => (hr hx).imp_right fun hx => hx.2)
      rw [mailbox_leave, if_pos rfl]
    · obtain ⟨hm, hs⟩ := h.leave_others hn hwp htw
      refine (h.course t ht).mono hm ?_ ⟨fun hx => hts.subset hx, fun hx => ?_⟩
        (fun r due hx => (hr hx).resolve_right fun hx => htw hx.1) (Nat.le_refl _)
      · rw [hheld.mem_iff]
        simp [Parties.held, htw]
      · exact List.mem_append.2 ((List.mem_append.1 hx).imp_left hs)
  · rcases List.mem_cons.1 (hheld.mem_iff.1 hk) with rfl | hk
    · rcases hx with ⟨r, due, hx⟩ | hx
      · exact .inr (.inl ⟨r, due, .inl hx⟩)
      · exact .inr (.inr (List.mem_append_right _ hx))
    · exact .inl hk

theorem strike (h : Sound j s) {e : Ending} {rest : List Ending} {p : Event}
    (he : s.endings.Perm (e :: rest)) (hp : p = .returned e.result e.due ∨ p = .dropped) :
    Sound (j ++ [(e.ticket, p)]) { s with endings := rest } := by
  have hi : ids [(e.ticket, p)] = [] := by
    rcases hp with rfl | rfl <;> rfl
  have hs : ∀ t, slotEvents [(e.ticket, p)] t = [] := fun t => by
    rcases hp with rfl | rfl <;> simp [Event.ofSlot]
  refine h.next hi rfl (.refl _) (.refl _) (.refl _) (fun e' hx => h.ended e' ?_)
    (fun q hq => ?_) (fun t ht => ?_) (fun t ht => ?_)
  · exact he.mem_iff.2 (List.mem_cons_of_mem _ hx)
  · rw [List.mem_singleton.1 hq]
    exact h.ended e (he.mem_iff.2 (by simp))
  · rw [hs, List.append_nil]
    refine Course.mono (h.course t ht) rfl Iff.rfl Iff.rfl (fun r due hx => ?_) (Nat.le_refl _)
    rcases hx with hx | hx
    · exact .inl (he.mem_iff.2 (List.mem_cons_of_mem _ hx))
    · rcases List.mem_append.1 hx with hx | hx
      · exact .inr hx
      · have hx := List.mem_singleton.1 hx
        rcases hp with rfl | rfl
        · cases hx
          exact .inl (he.mem_iff.2 (by simp))
        · cases hx
  · have hh : ∀ {k}, k ∈ s.held → k ∈ Parties.held { s with endings := rest } := fun hk => hk
    refine h.kept_append (fun hx => .inl (hh hx)) (fun e' hx => ?_) ht
    rcases List.mem_cons.1 (he.mem_iff.1 hx) with rfl | hx
    · rcases hp with rfl | rfl
      · exact .inr (.inl (by simp))
      · exact .inr (.inr (by simp))
    · exact .inl hx

/-- **Every move keeps the parties sound**, unless an id is registered a second time. -/
theorem move (h : Sound j s) (hn : (ids j).Nodup) (hm : Move s l s') : Sound (j ++ l) s' := by
  cases hm with
  | register hr => exact h.register hr
  | take hl =>
    rw [List.append_nil]
    exact h.take hl
  | close =>
    rw [List.append_nil]
    exact h.close
  | give reply hh => exact h.give reply hh
  | destroy hh => exact h.destroy hh
  | @drop w rest hw =>
    refine h.depart hn hw rfl (by simp [Event.ofSlot]) h.ended (fun hx => .inl ?_)
      (fun e he => he) (.inr (by simp))
    exact hx.imp_right fun hx => by simpa using hx
  | @finish w rest due bound r hw hr =>
    have hwl := h.lt_of_mem_held (t := w.ticket)
      (List.mem_map.2 ⟨w, hw.mem_iff.2 (by simp), rfl⟩)
    refine h.depart hn hw rfl nofun (fun e he => ?_) (fun {t r' due'} hx => ?_)
      (fun e he => List.mem_cons_of_mem _ he) (.inl ⟨r, due, by simp⟩)
    · rcases List.mem_cons.1 he with rfl | he
      · exact hwl
      · exact h.ended e he
    · rw [List.append_nil] at hx
      rcases hx with hx | hx
      · rcases List.mem_cons.1 hx with hx | hx
        · cases hx
          exact .inr ⟨rfl, yields_of_outcome? hr⟩
        · exact .inl (.inl hx)
      · exact .inl (.inr hx)
  | report he => exact h.strike he (.inl rfl)
  | forget he => exact h.strike he (.inr rfl)
  | aside hc hp hh he ht =>
    rw [List.append_nil]
    refine h.still (by rw [hc]) (by rw [hc]) (fun t => by rw [hc]) hp ?_ he ht
    unfold Parties.tickets
    rw [hc]
    exact (hh.map _).append_left _

theorem moves (h : Sound j s) (hm : Moves s l s') (hn : (ids (j ++ l)).Nodup) :
    Sound (j ++ l) s' := by
  induction hm with
  | refl => rwa [List.append_nil]
  | tail hs hm ih =>
    rw [← List.append_assoc] at hn ⊢
    rw [ids_append] at hn
    exact (ih hn.of_append_left).move hn.of_append_left hm

end Sound

end Correlator

end DocWire
