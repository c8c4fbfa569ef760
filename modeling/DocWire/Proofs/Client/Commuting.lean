import Mathlib.Data.List.Perm.Basic
import DocWire.Proofs.Client.Events
import DocWire.Proofs.Client.Onward
import DocWire.Proofs.Client.Outstanding

/-! # Frames of different ids

What a frame does is told by its id: as a reply it takes the slot of the id out of the registry and
puts itself into the mailbox of it, as the acknowledgment of a subscription it opens the route of the
id, and as a push it goes where the id leads (`route_eq`). Frames of different ids can be routed in
either order, then, as long as no two ids share a mailbox or a callback (`Apart`), and in the states
that a client can come to none do. -/

namespace DocWire

open DocWire.Correlator (Slot)
open DocWire.Incident (heard)

namespace Correlator

variable {κ : Type} {k : Correlator κ} {s t : Slot κ} {i j : String} {reply reply' : Reply}

theorem remove_comm (k : Correlator κ) (i j : String) :
    (k.remove i).remove j = (k.remove j).remove i := by
  unfold remove Entries.without
  simp only [List.filter_filter, Bool.and_comm]

theorem remove_eq_self (h : k.slots.lookup i = none) : k.remove i = k := by
  unfold remove Entries.without
  rw [Entries.filter_of_lookup_eq_none h]

theorem remove_fulfill (k : Correlator κ) (s : Slot κ) (reply : Reply) (i : String) :
    (k.fulfill s reply).2.remove i = ((k.remove i).fulfill s reply).2 := by
  have hm : (k.remove i).mailbox s.ticket = k.mailbox s.ticket := rfl
  unfold fulfill
  rw [hm]
  cases k.mailbox s.ticket <;> rfl

theorem fulfill_comm (hn : s.ticket ≠ t.ticket) (k : Correlator κ) (reply reply' : Reply) :
    ((k.fulfill s reply).2.fulfill t reply').2 = ((k.fulfill t reply').2.fulfill s reply).2 := by
  have hs : (k.fulfill t reply').2.mailbox s.ticket = k.mailbox s.ticket := by
    rw [mailbox_fulfill, if_neg fun h => hn h.1]
  have ht : (k.fulfill s reply).2.mailbox t.ticket = k.mailbox t.ticket := by
    rw [mailbox_fulfill, if_neg fun h => hn h.1.symm]
  have hf : ∀ (k' : Correlator κ) (s : Slot κ) (reply : Reply), (k'.fulfill s reply).2 =
      if k'.mailbox s.ticket = .vacant then k'.setMailbox s.ticket (.filled reply) else k' := by
    intro k' s reply
    unfold fulfill
    cases k'.mailbox s.ticket <;> rfl
  rw [hf (k.fulfill s reply).2 t reply', ht, hf (k.fulfill t reply').2 s reply, hs, hf k s reply,
    hf k t reply']
  by_cases h₁ : k.mailbox s.ticket = .vacant
  · by_cases h₂ : k.mailbox t.ticket = .vacant
    · rw [if_pos h₁, if_pos h₂, if_pos h₂, if_pos h₁]
      unfold setMailbox
      rw [List.set_comm _ _ hn]
    · rw [if_neg h₂, if_pos h₁, if_neg h₂, if_pos h₁]
  · by_cases h₂ : k.mailbox t.ticket = .vacant
    · rw [if_pos h₂, if_neg h₁, if_neg h₁, if_pos h₂]
    · rw [if_neg h₂, if_neg h₁, if_neg h₁, if_neg h₂]

theorem deliver_of_none (h : k.slots.lookup i = none) (reply : Reply) :
    (k.deliver i reply).2 = k := by
  unfold deliver take
  rw [h]
  exact remove_eq_self h

theorem deliver_of_some (h : k.slots.lookup i = some s) (reply : Reply) :
    (k.deliver i reply).2 = ((k.remove i).fulfill s reply).2 := by
  unfold deliver take
  rw [h]

theorem lookup_deliver (hn : j ≠ i) (k : Correlator κ) (reply : Reply) :
    (k.deliver i reply).2.slots.lookup j = k.slots.lookup j := by
  cases h : k.slots.lookup i with
  | none => rw [deliver_of_none h]
  | some s => rw [deliver_of_some h, slots_fulfill, lookup_remove, if_neg hn]

theorem mailbox_deliver {ticket : Nat} (h : ∀ s, k.slots.lookup i = some s → ticket ≠ s.ticket)
    (reply : Reply) : (k.deliver i reply).2.mailbox ticket = k.mailbox ticket := by
  cases hs : k.slots.lookup i with
  | none => rw [deliver_of_none hs]
  | some s =>
    rw [deliver_of_some hs, mailbox_fulfill, if_neg fun hx => h s hs hx.1]
    rfl

/-- No two ids share a mailbox. -/
def Apart (k : Correlator κ) : Prop :=
  ∀ i j s t, k.slots.lookup i = some s → k.slots.lookup j = some t → s.ticket = t.ticket → i = j

/-- **Replies to different ids can come in either order**, unless the ids share a mailbox. -/
theorem deliver_comm (ha : k.Apart) (hn : i ≠ j) (reply reply' : Reply) :
    ((k.deliver i reply).2.deliver j reply').2 = ((k.deliver j reply').2.deliver i reply).2 := by
  have hj := lookup_deliver hn.symm k reply
  have hi := lookup_deliver hn k reply'
  cases h₁ : k.slots.lookup i with
  | none =>
    rw [h₁] at hi
    rw [deliver_of_none h₁, deliver_of_none hi]
  | some s =>
    rw [h₁] at hi
    cases h₂ : k.slots.lookup j with
    | none =>
      rw [h₂] at hj
      rw [deliver_of_none h₂, deliver_of_none hj]
    | some t =>
      rw [h₂] at hj
      rw [deliver_of_some hj, deliver_of_some h₁, deliver_of_some hi, deliver_of_some h₂,
        remove_fulfill, remove_fulfill, remove_comm]
      exact fulfill_comm (fun h => hn (ha i j s t h₁ h₂ h)) _ _ _

end Correlator

namespace Routes

variable {κ : Type} {i j : String}

theorem entries_subscribe (r : Routes κ) (i : String) (a : κ) : (r.subscribe i a).2.entries =
    r.entries ++ if r.contains i then [] else [(i, a)] := by
  unfold subscribe
  split <;> simp_all

theorem contains_subscribe (hn : j ≠ i) (r : Routes κ) (a : κ) :
    (r.subscribe i a).2.contains j = r.contains j := by
  unfold contains
  rw [get?_subscribe, if_neg hn]

/-- A route that has just been opened is closed without a trace. -/
theorem unsubscribe_subscribe {r : Routes κ} {a : κ} (h : (r.subscribe i a).1 = true) :
    ((r.subscribe i a).2.unsubscribe i).2 = r := by
  have hc : r.contains i = false := by
    unfold subscribe at h
    split at h
    · cases h
    next hc => simpa using hc
  have hn : r.entries.lookup i = none := by
    unfold contains get? at hc
    simpa using hc
  obtain ⟨entries⟩ := r
  unfold unsubscribe Entries.without
  rw [entries_subscribe, hc]
  simp [List.filter_append, Entries.filter_of_lookup_eq_none hn]

theorem subscribe_of_contains {r : Routes κ} {a : κ} (h : (r.subscribe i a).1 = false) :
    (r.subscribe i a).2 = r := by
  unfold subscribe at h ⊢
  split at h
  next hc => rw [if_pos hc]
  · cases h

theorem perm_subscribe (hn : i ≠ j) (r : Routes κ) (a b : κ) :
    ((r.subscribe i a).2.subscribe j b).2.entries.Perm
      ((r.subscribe j b).2.subscribe i a).2.entries := by
  rw [entries_subscribe, entries_subscribe, entries_subscribe, entries_subscribe,
    contains_subscribe hn.symm, contains_subscribe hn, List.append_assoc, List.append_assoc]
  exact List.perm_append_comm.append_left _

theorem get?_subscribe_comm (hn : i ≠ j) (r : Routes κ) (a b : κ) (id : String) :
    ((r.subscribe i a).2.subscribe j b).2.get? id =
      ((r.subscribe j b).2.subscribe i a).2.get? id := by
  rw [get?_subscribe, get?_subscribe, get?_subscribe, get?_subscribe, get?_subscribe,
    get?_subscribe, if_neg hn, if_neg hn.symm]
  by_cases hi : id = i
  · rw [if_pos hi, if_neg fun h => hn (hi.symm.trans h), if_pos hi]
  · rw [if_neg hi, if_neg hi]

end Routes

namespace Frame

variable {f g : Frame} {i j id : String} {k : Correlator Target} {r : Routes Target}

/-- The id that a frame names. -/
def addressee? (f : Frame) : Option String := f.envelope?.bind (·.id)

/-- The requests under way after a frame. -/
def correlate (f : Frame) (k : Correlator Target) : Correlator Target :=
  match f.reply? with
  | some (id, reply) => (k.deliver id reply).2
  | none => k

/-- The route that a frame opens, unless its id has one: that of a subscription whose request it
acknowledges, and whose waiter is there. -/
def opens? (f : Frame) (k : Correlator Target) : Option (String × Target) :=
  match f.reply? with
  | some (id, _) =>
    match k.slots.lookup id with
    | some ⟨ticket, some target⟩ =>
      if f.tellsOfError = false ∧ k.mailbox ticket = .vacant then some (id, target) else none
    | _ => none
  | none => none

/-- The routes after a frame. -/
def reroute (f : Frame) (k : Correlator Target) (r : Routes Target) : Routes Target :=
  match f.opens? k with
  | some (id, target) => (r.subscribe id target).2
  | none => r

/-- What a frame gives to a callback. -/
def notes (f : Frame) (r : Routes Target) : List Incident :=
  match f.push? with
  | some note => ((r.get? note.id).map fun target => .notified target.call note.event).toList
  | none => []

theorem addressee?_of_reply? {reply : Reply} (h : f.reply? = some (id, reply)) :
    f.addressee? = some id := by
  obtain ⟨envelope, hv, hi, -⟩ := reply?_eq_some h
  rw [addressee?, hv]
  exact hi

theorem addressee?_of_push? {note : ChangeNotification} (h : f.push? = some note) :
    f.addressee? = some note.id := by
  obtain ⟨id, event⟩ := note
  have he := event?_eq_some.2 h
  unfold event? at he
  split at he
  next encoding envelope _ hv =>
    split at he
    next hc =>
      rw [addressee?, hv]
      simpa using (Bool.and_eq_true_iff.1 hc).2
    · cases he
  · cases he

/-! ### Two frames -/

theorem correlate_comm (ha : k.Apart) (hf : f.addressee? = some i) (hg : g.addressee? = some j)
    (hn : i ≠ j) : g.correlate (f.correlate k) = f.correlate (g.correlate k) := by
  unfold correlate
  rcases hr : f.reply? with _ | ⟨i', reply⟩
  · rfl
  rcases hr' : g.reply? with _ | ⟨j', reply'⟩
  · rfl
  obtain rfl : i = i' := Option.some.inj (hf.symm.trans (addressee?_of_reply? hr))
  obtain rfl : j = j' := Option.some.inj (hg.symm.trans (addressee?_of_reply? hr'))
  exact Correlator.deliver_comm ha hn reply reply'

/-- A frame of another id has no part in what a frame opens. -/
theorem opens?_correlate (ha : k.Apart) (hf : f.addressee? = some i) (hg : g.addressee? = some j)
    (hn : i ≠ j) : f.opens? (g.correlate k) = f.opens? k := by
  unfold correlate
  rcases hr' : g.reply? with _ | ⟨j', reply'⟩
  · rfl
  obtain rfl : j = j' := Option.some.inj (hg.symm.trans (addressee?_of_reply? hr'))
  unfold opens?
  rcases hr : f.reply? with _ | ⟨i', reply⟩
  · rfl
  obtain rfl : i = i' := Option.some.inj (hf.symm.trans (addressee?_of_reply? hr))
  dsimp only
  rw [Correlator.lookup_deliver hn]
  rcases hs : k.slots.lookup i with _ | ⟨ticket, _ | target⟩
  · rfl
  · rfl
  · dsimp only
    rw [Correlator.mailbox_deliver fun s hs' ht => hn (ha i j _ s hs hs' ht)]

theorem opens?_addressee {target : Target} (h : f.opens? k = some (id, target)) :
    f.addressee? = some id := by
  unfold opens? at h
  split at h
  next id' reply hr =>
    split at h
    · split at h
      · cases h
        exact addressee?_of_reply? hr
      · cases h
    · cases h
  · cases h

theorem get?_reroute (hg : g.addressee? = some j) (hn : i ≠ j) (k : Correlator Target)
    (r : Routes Target) : (g.reroute k r).get? i = r.get? i := by
  unfold reroute
  split
  next j' target ho =>
    obtain rfl : j = j' := Option.some.inj (hg.symm.trans (opens?_addressee ho))
    rw [Routes.get?_subscribe, if_neg hn]
  · rfl

theorem notes_reroute (hf : f.addressee? = some i) (hg : g.addressee? = some j) (hn : i ≠ j)
    (k : Correlator Target) (r : Routes Target) : f.notes (g.reroute k r) = f.notes r := by
  unfold notes
  split
  next note hp =>
    obtain rfl : i = note.id := Option.some.inj (hf.symm.trans (addressee?_of_push? hp))
    rw [get?_reroute hg hn]
  · rfl

theorem reroute_comm (ha : k.Apart) (hf : f.addressee? = some i) (hg : g.addressee? = some j)
    (hn : i ≠ j) (r : Routes Target) :
    (g.reroute (f.correlate k) (f.reroute k r)).entries.Perm
        (f.reroute (g.correlate k) (g.reroute k r)).entries ∧
      ∀ id, (g.reroute (f.correlate k) (f.reroute k r)).get? id =
        (f.reroute (g.correlate k) (g.reroute k r)).get? id := by
  unfold reroute
  rw [opens?_correlate ha hf hg hn, opens?_correlate ha hg hf hn.symm]
  rcases ho : f.opens? k with _ | ⟨i', target⟩
  · exact ⟨.refl _, fun _ => rfl⟩
  rcases ho' : g.opens? k with _ | ⟨j', target'⟩
  · exact ⟨.refl _, fun _ => rfl⟩
  obtain rfl : i = i' := Option.some.inj (hf.symm.trans (opens?_addressee ho))
  obtain rfl : j = j' := Option.some.inj (hg.symm.trans (opens?_addressee ho'))
  exact ⟨Routes.perm_subscribe hn r _ _, Routes.get?_subscribe_comm hn r _ _⟩

/-- Callbacks that are not the same hear their events in either order. -/
theorem heard_notes_comm (ha : ∀ i j s t, r.get? i = some s → r.get? j = some t →
    s.call = t.call → i = j) (hf : f.addressee? = some i) (hg : g.addressee? = some j)
    (hn : i ≠ j) (n : Nat) : heard n (f.notes r) ++ heard n (g.notes r) =
      heard n (g.notes r) ++ heard n (f.notes r) := by
  unfold notes
  rcases hp : f.push? with _ | note
  · exact (List.append_nil _).symm
  rcases hp' : g.push? with _ | note'
  · exact List.append_nil _
  obtain rfl : i = note.id := Option.some.inj (hf.symm.trans (addressee?_of_push? hp))
  obtain rfl : j = note'.id := Option.some.inj (hg.symm.trans (addressee?_of_push? hp'))
  dsimp only
  rcases hs : r.get? note.id with _ | s
  · exact (List.append_nil _).symm
  rcases ht : r.get? note'.id with _ | t
  · exact List.append_nil _
  have hc : s.call ≠ t.call := fun h => hn (ha _ _ s t hs ht h)
  by_cases h₁ : s.call = n
  · have h₂ : t.call ≠ n := fun h => hc (h₁.trans h.symm)
    simp [heard, Incident.heard?, h₁, h₂]
  · by_cases h₂ : t.call = n
    · simp [heard, Incident.heard?, h₁, h₂]
    · simp [heard, Incident.heard?, h₁, h₂]

end Frame

namespace Client

variable {c d : Client} {f g : Frame} {i j : String} {config : Config}

/-- Routing depends on what is read in a frame. -/
theorem route_eq_match (c : Client) (f : Frame) : c.route f =
    match f.reply?, f.push? with
    | some (id, reply), _ => (c.record (.routed f)).resolve id f.tellsOfError reply
    | none, some note => (c.record (.routed f)).dispatch note
    | none, none => c.record (.routed f) := by
  unfold route Frame.reply? Frame.push? Frame.tellsOfError Frame.envelope?
  cases he : f.header.encoding? with
  | none => rfl
  | some encoding =>
    dsimp only [Option.bind_some]
    unfold routePayload
    cases encoding.decode? Envelope.read? f.payload with
    | none => rfl
    | some envelope =>
      dsimp only
      cases hi : envelope.id with
      | none => simp
      | some id =>
        by_cases hc : envelope.isChange = true
        · simp only [hc, if_true, Option.isSome_some, Bool.and_true]
          cases encoding.decode? ChangeNotification.read? f.payload <;> rfl
        · simp only [hc, Option.map_some]
          rfl

/-- **The route of an acknowledgment is open in the end if its waiter is there**, and else as it was
before. -/
theorem handOver_eq (c : Client) (id : String) (isError : Bool) (reply : Reply)
    (slot : Slot Target) : c.handOver id isError reply slot =
    { c with
      correlator := (c.correlator.fulfill slot reply).2
      routes :=
        match slot.subscription with
        | some target =>
          if isError = false ∧ c.correlator.mailbox slot.ticket = .vacant then
            (c.routes.subscribe id target).2
          else c.routes
        | none => c.routes } := by
  have hf : (c.correlator.fulfill slot reply).1 = true ↔
      c.correlator.mailbox slot.ticket = .vacant := Correlator.fulfill_eq_true
  unfold handOver openRoute
  cases slot.subscription with
  | none => rfl
  | some target =>
    cases isError with
    | true => rfl
    | false =>
      simp only [Bool.false_eq_true, if_false, true_and]
      by_cases hv : c.correlator.mailbox slot.ticket = .vacant
      · rw [hf.2 hv, if_pos hv, Bool.not_true, Bool.and_false, if_neg Bool.false_ne_true]
      · have hx : (c.correlator.fulfill slot reply).1 = false := by
          simpa using fun h => hv (hf.1 h)
        rw [hx, if_neg hv, Bool.not_false, Bool.and_true]
        cases ho : (c.routes.subscribe id target).1 with
        | false => rw [if_neg Bool.false_ne_true, Routes.subscribe_of_contains ho]
        | true => rw [if_pos rfl, Routes.unsubscribe_subscribe ho]

/-- **What a frame does**, besides waking the calls whose mailboxes are decided. -/
theorem route_eq (c : Client) (f : Frame) : ∃ l, c.route f =
    { c with
      correlator := f.correlate c.correlator
      routes := f.reroute c.correlator c.routes
      journal := c.journal ++ .routed f :: f.notes c.routes
      ready := l } := by
  rw [route_eq_match]
  rcases hr : f.reply? with _ | ⟨id, reply⟩
  · have hk : ∀ k, f.correlate k = k := fun k => by rw [Frame.correlate, hr]
    have ho : ∀ k r, f.reroute k r = r := fun k r => by rw [Frame.reroute, Frame.opens?, hr]
    rw [hk, ho]
    rcases hp : f.push? with _ | note
    · exact ⟨c.ready, by rw [Frame.notes, hp]; rfl⟩
    · rw [Frame.notes, hp]
      dsimp only
      unfold dispatch
      have hg : (c.record (.routed f)).routes.get? note.id = c.routes.get? note.id := rfl
      rw [hg]
      cases c.routes.get? note.id with
      | none => exact ⟨c.ready, rfl⟩
      | some target => exact ⟨c.ready, by simp [record]⟩
  · have hn : f.notes c.routes = [] := by rw [Frame.notes, Frame.push?_eq_none_of_reply? hr]
    have hk : ∀ k, f.correlate k = (k.deliver id reply).2 := fun k => by rw [Frame.correlate, hr]
    rw [hn, hk]
    dsimp only
    unfold resolve Correlator.take
    have hl : (c.record (.routed f)).correlator = c.correlator := rfl
    rw [hl]
    cases hs : c.correlator.slots.lookup id with
    | none =>
      refine ⟨c.ready, ?_⟩
      rw [Correlator.deliver_of_none hs, Frame.reroute, Frame.opens?, hr]
      dsimp only
      rw [hs]
      rfl
    | some slot =>
      dsimp only
      obtain ⟨l, hq⟩ := exists_ready_wakeCalls (handOver { c.record (.routed f) with
        correlator := c.correlator.remove id } id f.tellsOfError reply slot) (isDecided _)
      refine ⟨l, hq.trans ?_⟩
      rw [handOver_eq, Correlator.deliver_of_some hs, Frame.reroute, Frame.opens?, hr]
      dsimp only
      rw [hs]
      obtain ⟨ticket, subscription⟩ := slot
      cases subscription with
      | none => rfl
      | some target =>
        dsimp only
        have hm : (c.correlator.remove id).mailbox ticket = c.correlator.mailbox ticket := rfl
        rw [hm]
        split <;> rfl

/-! ### The whole contract -/

/-- No two ids share a mailbox or lead to one callback. -/
structure Apart (c : Client) : Prop where
  tickets : c.correlator.Apart
  targets : ∀ i j s t, c.routes.get? i = some s → c.routes.get? j = some t → s.call = t.call → i = j

/-- Two clients have the same registries, and their callbacks have been given the same. They have
written down frames in different orders, and wake tasks in different orders; in everything else they
are the same. -/
structure Agree (c d : Client) : Prop where
  correlator : c.correlator = d.correlator
  routes : ∀ id, c.routes.get? id = d.routes.get? id
  entries : c.routes.entries.Perm d.routes.entries
  heard : ∀ n, heard n c.journal = heard n d.journal
  rest : ({ c with routes := .empty, journal := [], ready := [] } : Client) =
    { d with routes := .empty, journal := [], ready := [] }

/-- How far a frame matters, and when. Frames of different ids can be routed in either order. A
frame is passed over if its encoding is not known, its envelope cannot be read, it names no id, or
it is a push that cannot be read. The kind that a frame calls itself does not matter. -/
structure Independent (c : Client) : Prop where
  commute : ∀ f g i j, f.addressee? = some i → g.addressee? = some j → i ≠ j →
    Agree ((c.route f).route g) ((c.route g).route f)
  passed : ∀ f : Frame, f.header.encoding? = none ∨ f.envelope? = none ∨ f.addressee? = none ∨
    f.envelope?.any (·.isChange) = true ∧ f.push? = none → c.route f = c.record (.routed f)
  kind : ∀ (f : Frame) (kind : UInt8),
    let g : Frame := { f with header := { f.header with kind := kind } }
    ∃ (d : Client) (notes : List Incident),
      c.route f = { d with journal := c.journal ++ .routed f :: notes } ∧
        c.route g = { d with journal := c.journal ++ .routed g :: notes }

theorem Apart.commute (ha : c.Apart) (hf : f.addressee? = some i) (hg : g.addressee? = some j)
    (hn : i ≠ j) : Agree ((c.route f).route g) ((c.route g).route f) := by
  obtain ⟨l₁, h₁⟩ := route_eq c f
  obtain ⟨l₂, h₂⟩ := route_eq (c.route f) g
  obtain ⟨l₃, h₃⟩ := route_eq c g
  obtain ⟨l₄, h₄⟩ := route_eq (c.route g) f
  rw [h₂, h₄, h₁, h₃]
  obtain ⟨he, hr⟩ := Frame.reroute_comm ha.tickets hf hg hn c.routes
  refine ⟨Frame.correlate_comm ha.tickets hf hg hn, hr, he, fun n => ?_, ?_⟩
  · dsimp only
    rw [Frame.notes_reroute hg hf hn.symm, Frame.notes_reroute hf hg hn]
    have hc := Frame.heard_notes_comm ha.targets hf hg hn n
    unfold heard at hc ⊢
    simp only [List.filterMap_append, List.filterMap_cons, Incident.heard?, List.append_assoc]
    rw [hc]
  · dsimp only
    rw [Frame.correlate_comm ha.tickets hf hg hn]

theorem wakeCalls_journal (j : List Incident) (p : Stage → Bool) (c : Client) :
    wakeCalls { c with journal := j } p = { c.wakeCalls p with journal := j } := by
  have hw : ∀ (d : Client) (t : Task), wake { d with journal := j } t =
      { d.wake t with journal := j } := by
    intro d t
    unfold wake
    split <;> rfl
  have hf : ∀ (l : List Nat) (d : Client),
      l.foldl (fun d n => if p (d.stage n) then d.wake (.call n) else d) { d with journal := j } =
        { l.foldl (fun d n => if p (d.stage n) then d.wake (.call n) else d) d with
          journal := j } := by
    intro l
    induction l with
    | nil => exact fun _ => rfl
    | cons n l ih =>
      intro d
      rw [List.foldl_cons, List.foldl_cons, ← ih]
      congr 1
      change (if p (d.stage n) then wake { d with journal := j } (.call n) else _) = _
      split
      · exact hw d _
      · rfl
  exact hf (List.range c.calls.length) c

theorem resolve_journal (c : Client) (j : List Incident) (id : String) (isError : Bool)
    (reply : Reply) : resolve { c with journal := j } id isError reply =
      { c.resolve id isError reply with journal := j } := by
  unfold resolve Correlator.take
  dsimp only
  cases c.correlator.slots.lookup id with
  | none => rfl
  | some slot =>
    have hh : handOver { c with correlator := c.correlator.remove id, journal := j } id isError
        reply slot = { handOver { c with correlator := c.correlator.remove id } id isError reply
          slot with journal := j } := by
      rw [handOver_eq, handOver_eq]
    exact (congrArg wakeDecided hh).trans (wakeCalls_journal j _ _)

theorem exists_route_kind (c : Client) (f g : Frame) (he : g.header.encoding = f.header.encoding)
    (hp : g.payload = f.payload) : ∃ (d : Client) (notes : List Incident),
      c.route f = { d with journal := c.journal ++ .routed f :: notes } ∧
        c.route g = { d with journal := c.journal ++ .routed g :: notes } := by
  have hx : g.header.encoding? = f.header.encoding? := congrArg Encoding.ofByte? he
  have hv : g.envelope? = f.envelope? := by rw [Frame.envelope?, Frame.envelope?, hx, hp]
  have hr : g.reply? = f.reply? := by rw [Frame.reply?, Frame.reply?, hx, hv, hp]
  have hn : g.push? = f.push? := by rw [Frame.push?, Frame.push?, hx, hv, hp]
  have ht : g.tellsOfError = f.tellsOfError := by rw [Frame.tellsOfError, Frame.tellsOfError, hv]
  rw [route_eq_match, route_eq_match, hr, hn, ht]
  rcases f.reply? with _ | ⟨id, reply⟩
  · rcases f.push? with _ | note
    · exact ⟨c, [], rfl, rfl⟩
    · dsimp only
      unfold dispatch
      have hg : ∀ i, (c.record i).routes.get? note.id = c.routes.get? note.id := fun _ => rfl
      rw [hg, hg]
      cases c.routes.get? note.id with
      | none => exact ⟨c, [], rfl, rfl⟩
      | some target =>
        exact ⟨c, [.notified target.call note.event], by simp [record], by simp [record]⟩
  · exact ⟨c.resolve id f.tellsOfError reply, [], resolve_journal c _ id _ reply,
      resolve_journal c _ id _ reply⟩

theorem route_eq_record {f : Frame} (hr : f.reply? = none) (hp : f.push? = none) :
    c.route f = c.record (.routed f) := by
  rw [route_eq_match, hr, hp]

/-- **Frames of different ids are independent** in a client in which no two ids share anything. -/
theorem Apart.toIndependent (ha : c.Apart) : c.Independent where
  commute _ _ _ _ hf hg hn := ha.commute hf hg hn
  passed f hf := by
    have hx : f.addressee? = none → f.reply? = none ∧ f.push? = none := by
      intro h
      refine ⟨Option.eq_none_iff_forall_ne_some.2 fun ⟨id, reply⟩ hr => ?_,
        Option.eq_none_iff_forall_ne_some.2 fun note hp => ?_⟩
      · cases h.symm.trans (Frame.addressee?_of_reply? hr)
      · cases h.symm.trans (Frame.addressee?_of_push? hp)
    have hv : f.envelope? = none → f.addressee? = none := fun h => by
      rw [Frame.addressee?, h]
      rfl
    rcases hf with he | he | he | ⟨hc, hp⟩
    · have he' : f.envelope? = none := by rw [Frame.envelope?, he]; rfl
      exact route_eq_record (hx (hv he')).1 (hx (hv he')).2
    · exact route_eq_record (hx (hv he)).1 (hx (hv he)).2
    · exact route_eq_record (hx he).1 (hx he).2
    · refine route_eq_record (Option.eq_none_iff_forall_ne_some.2 fun ⟨id, reply⟩ hr => ?_) hp
      obtain ⟨envelope, hv, -, hn, -⟩ := Frame.reply?_eq_some hr
      rw [hv] at hc
      simp [hn] at hc
  kind f kind := exists_route_kind c f _ rfl rfl

/-- In the states that a client can come to, no two ids share a mailbox or a callback. -/
theorem Possible.apart (h : Possible config c) : c.Apart where
  tickets i j s t hs ht he := by
    obtain ⟨n, w, hw, rfl, rfl, -⟩ := h.lawful.correlated.of_lookup hs
    obtain ⟨m, w', hw', rfl, rfl, -⟩ := h.lawful.correlated.of_lookup ht
    obtain rfl := h.lawful.correlated.apart hw hw' he
    rw [hw] at hw'
    cases hw'
    rfl
  targets i j s t hs ht he := by
    obtain ⟨n, hn, hx⟩ := (h.lawful.feeding.routes i s).1 hs
    obtain ⟨m, hm, hy⟩ := (h.lawful.feeding.routes j t).1 ht
    rw [call_of_targetFor hn, call_of_targetFor hm] at he
    subst he
    exact h.lawful.correlated.sameId hx.mem hy.mem

/-- **Frames of different ids are independent**, in every state that a client can come to. -/
theorem Possible.independent (h : Possible config c) : c.Independent := h.apart.toIndependent

/-- A client with an open subscription and a ping that waits for its reply. -/
def asking : Client := following.perform (.start (.operation .ping))

/-- A push for the subscription of `asking`. -/
def told : Frame := ⟨⟨29, 3, 1⟩, (deletion 0x32).drop 6⟩

/-- The reply to the ping of `asking`. -/
def ponged : Frame := ⟨⟨18, 2, 1⟩, (pong 0x33).drop 6⟩

theorem independent_asking :
    ((asking.routes.get? "2").isSome ∧ asking.correlator.contains "3") ∧
    (told.addressee? = some "2" ∧ ponged.addressee? = some "3") ∧
    Agree ((asking.route told).route ponged) ((asking.route ponged).route told) ∧
    asking.Independent := by
  have hp : Possible .default asking :=
    ((reachable_performAll _ _).later (later_perform _ _)).possible
  have ht : told.addressee? = some "2" := by decide +kernel
  have hk : ponged.addressee? = some "3" := by decide +kernel
  exact ⟨by decide +kernel, ⟨ht, hk⟩, hp.independent.commute told ponged "2" "3" ht hk (by decide),
    hp.independent⟩

end Client

end DocWire
