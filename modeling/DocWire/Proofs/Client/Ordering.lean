import DocWire.Proofs.Client.Outgoing
import DocWire.Proofs.Client.Outstanding
import DocWire.Proofs.Client.Speaking

/-! # Requests on the wire

A call that has the write path takes the next number, registers its request under it, and only then
writes. So the requests come to the peer in the order of their numbers, each at most once (`Wired`),
and before the peer takes the first byte of one its slot is in the registry (`Writes`). What carries
this is that the messages whose frames the peer takes are some of those that calls have set out to
send, in their order, and that the requests among these are numbered in the order of the journal. -/

namespace DocWire

open DocWire.Correlator (Waiter)

/-- Ids that are growing numbers, from 1 on and below a bound. -/
def Growing (ids : List String) (bound : Nat) : Prop :=
  ∃ ks : List Nat, ids = ks.map toString ∧ ks.Pairwise (· < ·) ∧ ∀ k ∈ ks, 1 ≤ k ∧ k < bound

theorem Growing.sublist {ids ids' : List String} {bound : Nat} (h : Growing ids bound)
    (hs : ids'.Sublist ids) : Growing ids' bound := by
  obtain ⟨ks, rfl, hp, hk⟩ := h
  obtain ⟨ks', hs', rfl⟩ := List.sublist_map_iff.1 hs
  exact ⟨ks', rfl, hp.sublist hs', fun k hx => hk k (hs'.subset hx)⟩

/-- Every call that has set out to send a request has registered it right before. -/
def Announced (j : List Incident) : Prop :=
  ∀ n m id, .sending n m ∈ j → m.requestId? = some id →
    ∃ before since, j = before ++ .registered n id :: .sending n m :: since

variable {j l : List Incident}

theorem Announced.append (h : Announced j) (h' : Announced l) : Announced (j ++ l) := by
  intro n m id hm hi
  rcases List.mem_append.1 hm with hm | hm
  · obtain ⟨before, since, rfl⟩ := h n m id hm hi
    exact ⟨before, since ++ l, by simp⟩
  · obtain ⟨before, since, rfl⟩ := h' n m id hm hi
    exact ⟨j ++ before, since, by simp⟩

theorem Announced.aside (h : ∀ i ∈ l, ¬ i.OfSending) : Announced l := fun _ _ _ hm _ =>
  absurd trivial (h _ hm)

theorem Announced.unsent {n : Nat} {e : Failure} (h : ∀ i ∈ l, ¬ i.OfSending) :
    Announced (.unsent n e :: l) := by
  intro n' m id hm _
  rcases List.mem_cons.1 hm with hm | hm
  · cases hm
  · exact absurd trivial (h _ hm)

namespace Client

variable {c c' c₁ d : Client} {config : Config} {n : Nat} {m : ClientMessage} {id : String}
  {waiter : Option Waiter} {begun : List (Nat × ClientMessage)}

theorem Enters.announced (he : c.Enters n m waiter c₁) (hj : c₁.journal = c.journal ++ l) :
    Announced l := by
  cases he with
  | @request op w correlator hs hh hop hr =>
    have hl : c.journal ++ [.registered n w.id, .sending n (op.message w.id)] = c.journal ++ l :=
      (List.append_assoc c.journal [_] [_]).symm.trans hj
    rw [← List.append_cancel_left hl]
    intro n' m' id hm hi
    have hm : n' = n ∧ m' = op.message w.id := by simpa using hm
    obtain ⟨rfl, rfl⟩ := hm
    obtain rfl := Option.some.inj ((op.requestId?_message w.id).symm.trans hi)
    exact ⟨[], [], rfl⟩
  | @farewell id hs hh hop =>
    have hl : c.journal ++ [.sending n (.unsubscribe id)] = c.journal ++ l := hj
    rw [← List.append_cancel_left hl]
    intro n' m' id' hm hi
    have hm : n' = n ∧ m' = .unsubscribe id := by simpa using hm
    obtain ⟨rfl, rfl⟩ := hm
    cases hi

theorem Announced.move (hm : c.Move c') (h : Announced c.journal) : Announced c'.journal := by
  obtain ⟨l, hj, ha⟩ := hm.adds
  rw [hj]
  refine h.append ?_
  cases ha with
  | aside hl => exact .aside hl
  | begun he hw hj' => exact he.announced hj'
  | failed he hj' hl => exact (he.announced hj').append (.unsent hl)
  | sent hs => exact fun n m id hm _ => by cases List.mem_singleton.1 hm
  | unsent hs hl => exact .unsent hl

theorem Possible.announced (h : Possible config c) : Announced c.journal :=
  Onward.induct (P := fun c => Announced c.journal) Announced.move (fun _ hx => hx) h nofun

/-! ### The order of the frames -/

/-- The peer has begun to take the frames of messages: it has taken the request of the handshake,
and then their frames in this order, but for some bytes at the end of the last one. They are
messages that calls have set out to send, in that order. The requests among them have growing
numbers for their ids, and each of these has been registered before its call set out to send it. -/
structure Wired (c : Client) (begun : List (Nat × ClientMessage)) : Prop where
  taken : ∃ opening frames rest, c.opening = .ok opening ∧
    List.Forall₂ (fun p f => c.frameOf? p.2 = .ok f) begun frames ∧
    c.peer.taken ++ rest = opening ++ frames.flatten ∧
    (rest = [] ∨ ∃ front last, frames = front ++ [last] ∧ rest.length < last.length)
  order : begun.Sublist (sendings c.journal)
  growing : Growing ((requests begun).map (·.2)) c.write.nextId
  announced : ∀ n m id, (n, m) ∈ begun → m.requestId? = some id →
    ∃ before since, c.journal = before ++ .registered n id :: .sending n m :: since

theorem Possible.growing (h : Possible config c) :
    Growing ((registrations c.journal).map (·.2)) c.write.nextId := by
  obtain ⟨ks, hks, hp, hk⟩ := h.numbered.order
  refine ⟨ks, hks, hp, fun k hx => ⟨?_, hk k hx⟩⟩
  have hm : toString k ∈ (registrations c.journal).map (·.2) := hks ▸ List.mem_map.2 ⟨k, hx, rfl⟩
  obtain ⟨⟨n, id⟩, hr, hid⟩ := List.mem_map.1 hm
  obtain ⟨k', hk', rfl⟩ := h.counting.issued (mem_registrations.1 hr)
  obtain rfl : k' = k := toString_inj hid
  exact hk'

theorem Possible.wired (h : Possible config c) (ho : begun.Sublist (sendings c.journal))
    {opening rest : List UInt8} {frames : List (List UInt8)} (hb : c.opening = .ok opening)
    (hf : List.Forall₂ (fun p f => c.frameOf? p.2 = .ok f) begun frames)
    (ht : c.peer.taken ++ rest = opening ++ frames.flatten)
    (hr : rest = [] ∨ ∃ front last, frames = front ++ [last] ∧ rest.length < last.length) :
    c.Wired begun where
  taken := ⟨opening, frames, rest, hb, hf, ht, hr⟩
  order := ho
  growing := by
    refine h.growing.sublist ?_
    rw [← h.numbered.sent]
    exact (ho.filterMap _).map _
  announced n m id hm hi := h.announced n m id (mem_sendings.1 (ho.subset hm)) hi

theorem Possible.exists_wired (h : Possible config c) (hs : c.session ≠ none) :
    ∃ begun, c.Wired begun := by
  obtain @⟨opening, part, whole, frames, hb, ht, hf, ho, hl⟩ := h.outgoing.stream hs
  have clear : part = [] → ∃ begun, c.Wired begun := fun hp => by
    have ht' : c.peer.taken ++ [] = opening ++ frames.flatten := by rw [ht, hp]; simp
    exact ⟨whole, h.wired ho hb hf ht' (.inl rfl)⟩
  have partly : ∀ {n m rest}, c.frameOf? m = .ok (part ++ rest) → part ≠ [] →
      (whole ++ [(n, m)]).Sublist (sendings c.journal) → ∃ begun, c.Wired begun := by
    intro n m rest hm hp hsub
    have hlen : 0 < part.length := List.length_pos_iff.2 hp
    have ht' : c.peer.taken ++ rest = opening ++ (frames ++ [part ++ rest]).flatten := by
      rw [ht]
      simp
    refine ⟨_, h.wired hsub hb (List.rel_append hf (.cons (a := (n, m)) hm .nil)) ht'
      (.inr ⟨frames, part ++ rest, rfl, ?_⟩)⟩
    rw [List.length_append]
    omega
  cases hl with
  | clear hn hp => exact clear hp
  | broken hn hh hm hp hr hsub => exact partly hm hp hsub
  | busy hst hm hz hsub =>
    by_cases hp : part = []
    · exact clear hp
    · exact partly hm hp hsub

/-! ### Registered first -/

/-- Every call that has registered a request, goes on and has had no reply has its slot while the
connection is open, with what its subscription is to be routed to. -/
def KeepsSlots (c : Client) : Prop :=
  ∀ n id, .registered n id ∈ c.journal → (c.stage n).isOpen = true → ¬ Replied c.journal n id →
    c.life = .connected → ∃ ticket, c.correlator.slots.lookup id = some ⟨ticket, c.targetFor n⟩

theorem Lawful.keepsSlots (hl : Lawful c) (ht : Told c) : c.KeepsSlots :=
  fun _ _ hg ha hr hc => hl.lookup ht hg ha hr (ht.opened fun hp => hp.ne_connected hc)

/-- A call is about to write what is left of the frame of its message. Nothing before that involves
the peer, and a request has been registered by then and has its slot. -/
structure Writes (c d : Client) (n : Nat) (s : Sending) (m : ClientMessage) : Prop where
  moves : c.Moves d
  peer : d.peer = c.peer
  stage : d.stage n = .send s
  left : ∃ part, d.frameOf? m = .ok (part ++ s.rest)
  sending : .sending n m ∈ d.journal
  registered : ∀ id, m.requestId? = some id → .registered n id ∈ d.journal
  slots : d.KeepsSlots

/-- A call that has set out to send is writing the frame of its message, which has been registered if
it is a request. -/
theorem Possible.writes (h : Possible config c) (hm : c.Moves d) (hp : d.peer = c.peer)
    {s : Sending} (hs : d.stage n = .send s) : ∃ m, c.Writes d n s m := by
  obtain ⟨hl, ht, hn, ho⟩ : Lawful d ∧ Told d ∧ Numbered d ∧ Outgoing d :=
    hm.induct (P := fun d => Lawful d ∧ Told d ∧ Numbered d ∧ Outgoing d)
      (fun hm ⟨hl, ht, hn, ho⟩ => ⟨hl.move hm, .move hl hm ht, hn.move hm, ho.move hm hl.guarded⟩)
      ⟨h.lawful, h.told, h.numbered, h.outgoing⟩
  obtain ⟨-, -, -, -, htail⟩ := ho.stream (hl.guarded.bound (hl.guarded.half_of_send hs))
  obtain ⟨m, hf, -, hsub⟩ := htail.of_send hl.guarded hs
  have hmem : (n, m) ∈ sendings d.journal := hsub.subset (by simp)
  refine ⟨m, hm, hp, hs, ⟨_, hf⟩, mem_sendings.1 hmem, fun id hi => ?_, hl.keepsSlots ht⟩
  rw [← mem_registrations, ← hn.sent]
  exact mem_requests.2 ⟨m, hmem, hi⟩

/-- **How requests go out**: in the order of their numbers, which are used up by operations only.
The peer takes something only from a call that writes the frame of its message, and then a request
has been registered and has its slot from then on. -/
structure Ordered (c : Client) : Prop where
  wire : c.session ≠ none → ∃ begun, c.Wired begun
  numbers : ∀ c', c.Goes c' → c'.write.nextId = c.write.nextId ∨
    ∃ n op, c' = c.turn (.call n) ∧ c.job n = .operation op ∧
      c'.write.nextId = c.write.nextId + 1
  writes : ∀ c', c.Goes c' → c.session ≠ none → c'.peer.taken ≠ c.peer.taken →
    ∃ n d s m, c' = d.writeOn n s ∧ c.Writes d n s m
  slots : ∀ c', c.Onward c' → c'.KeepsSlots

/-- **Request ids are ordered on the wire, and registered first.** -/
theorem Possible.ordered (h : Possible config c) : c.Ordered where
  wire := h.exists_wired
  numbers c' hg := by
    rcases h.lawful.guarded.speaks hg with hq | ⟨n, hturn, hx⟩
    · exact .inl hq.nextId
    · have hcount : c.MayCount n c'.write.nextId := by
        cases hx with
        | silent _ hi => exact hi
        | writes hw _ _ _ hi =>
          rw [hw, nextId_writeOn]
          exact hi
        | shakes _ hi => exact .inl hi
      rcases hcount with hi | ⟨hi, op, hj⟩
      · exact .inl hi
      · exact .inr ⟨n, op, hturn, hj, hi⟩
  writes c' hg hs ht := by
    rcases h.lawful.guarded.speaks hg with hq | ⟨n, -, hx⟩
    · exact absurd hq.taken ht
    · cases hx with
      | silent hq _ => exact absurd hq ht
      | shakes hn _ => exact absurd hn hs
      | @writes d s hw hm hp hst _ =>
        obtain ⟨m, hx⟩ := h.writes hm hp hst
        exact ⟨n, d, s, m, hw, hx⟩
  slots c' h' := (h.onward h').lawful.keepsSlots (h.onward h').told

/-- Two subscriptions, the end of one of them, and a ping have gone out. -/
theorem ordered_calling : (sendings calling.journal).map (·.1) = [1, 2, 3, 4] ∧
    (requests (sendings calling.journal)).map (·.2) = ["1", "2", "3"] ∧
    (∃ begun, calling.Wired begun) ∧ calling.Ordered := by
  have h : Reachable .default calling := (reachable_performAll _ _).later (later_perform _ _)
  have hs : calling.session ≠ none := fun hn => by
    have hx : calling.session.isSome = true := by decide +kernel
    rw [hn] at hx
    cases hx
  exact ⟨by decide +kernel, by decide +kernel, h.possible.ordered.wire hs, h.possible.ordered⟩

end Client

end DocWire
