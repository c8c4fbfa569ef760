import DocWire.Proofs.Client.Ids

/-! # The numbers of requests

A call is registered under the next number when it has the write path, and it is that call which then
sets out to send its request. So the requests stand in the journal in the order of their numbers, each
number once, and those that calls set out to send are those that have been registered (`Numbered`).
Closing a subscription is no request and uses up no number. -/

namespace DocWire

open DocWire.Correlator (Waiter)

/-- The id under which a call is registered, with the call. -/
def Incident.registered? : Incident → Option (Nat × String)
  | .registered n id => some (n, id)
  | _ => none

/-- The id of a message that asks for a reply. -/
def ClientMessage.requestId? : ClientMessage → Option String
  | .unsubscribe _ => none
  | m => some m.id

/-- The ids under which calls have been registered, in order. -/
def registrations (j : List Incident) : List (Nat × String) := j.filterMap Incident.registered?

/-- The ids of the messages that ask for replies, in order. -/
def requests (sent : List (Nat × ClientMessage)) : List (Nat × String) :=
  sent.filterMap fun p => p.2.requestId?.map (Prod.mk p.1)

variable {j l : List Incident} {n m : Nat} {id : String}

theorem registrations_append (j l : List Incident) :
    registrations (j ++ l) = registrations j ++ registrations l :=
  List.filterMap_append

theorem requests_append (sent sent' : List (Nat × ClientMessage)) :
    requests (sent ++ sent') = requests sent ++ requests sent' :=
  List.filterMap_append

theorem mem_registrations : (n, id) ∈ registrations j ↔ .registered n id ∈ j := by
  unfold registrations
  rw [List.mem_filterMap]
  constructor
  · rintro ⟨i, hi, hs⟩
    cases i with
    | registered n' id' => cases hs; exact hi
    | _ => cases hs
  · exact fun h => ⟨_, h, rfl⟩

theorem mem_requests {sent : List (Nat × ClientMessage)} :
    (n, id) ∈ requests sent ↔ ∃ m, (n, m) ∈ sent ∧ m.requestId? = some id := by
  unfold requests
  rw [List.mem_filterMap]
  constructor
  · rintro ⟨⟨n', m⟩, hm, hs⟩
    obtain ⟨id', hi, he⟩ := Option.map_eq_some_iff.1 hs
    cases he
    exact ⟨m, hm, hi⟩
  · rintro ⟨m, hm, hi⟩
    exact ⟨(n, m), hm, by simp [hi]⟩

theorem Operation.requestId?_message (op : Operation) (id : String) :
    (op.message id).requestId? = some id := by
  cases op <;> rfl

theorem Incident.OfReception.unnumbered {i : Incident} (h : i.OfReception) :
    i.registered? = none ∧ i.sending? = none := by
  cases i <;> first | exact ⟨rfl, rfl⟩ | exact h.elim

theorem Incident.unnumbered_of_caller? {i : Incident} (h : i.caller? = none) :
    i.registered? = none ∧ i.sending? = none := by
  cases i <;> first | exact ⟨rfl, rfl⟩ | cases h

theorem eq_of_registered {before before' since since' : List Incident}
    (hn : ((registrations j).map (·.2)).Nodup) (h : j = before ++ .registered n id :: since)
    (h' : j = before' ++ .registered m id :: since') : before = before' ∧ since = since' := by
  have apart : ∀ {a b x : List Incident} {p q : Nat},
      j ≠ a ++ .registered p id :: (x ++ .registered q id :: b) := by
    rintro a b x p q rfl
    rw [registrations_append, List.map_append] at hn
    have hc := (List.nodup_append.1 hn).2.1
    refine (List.nodup_cons.1 hc).1 (List.mem_map.2 ⟨(q, id), mem_registrations.2 ?_, rfl⟩)
    simp
  rcases List.append_eq_append_iff.1 (h.symm.trans h') with ⟨x, hx, hr⟩ | ⟨x, hx, hr⟩
  · cases x with
    | nil => exact ⟨by simpa using hx.symm, (List.cons.inj hr).2⟩
    | cons i x =>
      obtain ⟨rfl, rfl⟩ := List.cons.inj hr
      exact absurd h apart
  · cases x with
    | nil => exact ⟨by simpa using hx, (List.cons.inj hr).2.symm⟩
    | cons i x =>
      obtain ⟨rfl, rfl⟩ := List.cons.inj hr
      exact absurd h' apart

namespace Client

variable {c c' c₁ : Client} {config : Config} {waiter : Option Waiter}

/-- What a move writes down about requests: nothing, or the next one, which is registered and set out
with at once. -/
inductive Counts (c c' : Client) (l : List Incident) : Prop
  | none (hr : registrations l = []) (hs : requests (sendings l) = [])
  | next {n : Nat} (hr : registrations l = [(n, c.nextId)])
      (hs : requests (sendings l) = [(n, c.nextId)]) (hi : c.write.nextId < c'.write.nextId)

theorem Counts.congr (h : c.Counts c₁ l) (hw : c'.write = c₁.write) : c.Counts c' l := by
  cases h with
  | none hr hs => exact .none hr hs
  | next hr hs hi => exact .next hr hs (hw ▸ hi)

theorem Counts.append {l' : List Incident} (h : c.Counts c₁ l)
    (hr : ∀ i ∈ l', i.registered? = Option.none) (hs : ∀ i ∈ l', i.sending? = Option.none)
    (hi : c₁.write.nextId ≤ c'.write.nextId) : c.Counts c' (l ++ l') := by
  have hr' : registrations l' = [] := List.filterMap_eq_nil_iff.2 hr
  have hs' : sendings l' = [] := List.filterMap_eq_nil_iff.2 hs
  have hreg : registrations (l ++ l') = registrations l := by
    rw [registrations_append, hr', List.append_nil]
  have hreq : requests (sendings (l ++ l')) = requests (sendings l) := by
    rw [sendings_append, hs', List.append_nil]
  cases h with
  | none hr hs => exact .none (hreg.trans hr) (hreq.trans hs)
  | next hr hs hlt => exact .next (hreg.trans hr) (hreq.trans hs) (Nat.lt_of_lt_of_le hlt hi)

theorem Counts.aside (h : ∀ i ∈ l, i.registered? = Option.none ∧ i.sending? = Option.none) :
    c.Counts c' l :=
  .none (List.filterMap_eq_nil_iff.2 fun i hi => (h i hi).1) (by
    rw [sendings, List.filterMap_eq_nil_iff.2 fun i hi => (h i hi).2]
    rfl)

theorem Enters.counts {message : ClientMessage} (he : c.Enters n message waiter c₁) :
    ∃ l, c₁.journal = c.journal ++ l ∧ c.Counts c₁ l := by
  cases he with
  | @request op w correlator hs hh hj hr =>
    obtain ⟨-, -, rfl, -⟩ := Correlator.register_ok hr
    refine ⟨_, List.append_assoc _ _ _, .next (n := n) rfl ?_ (Nat.lt_succ_self _)⟩
    change requests [(n, op.message c.nextId)] = _
    simp [requests, op.requestId?_message]
  | farewell hs hh hj => exact ⟨_, rfl, .none rfl rfl⟩

theorem Sends.counts (hs : c.Sends n waiter c₁) :
    ∃ l, c₁.journal = c.journal ++ l ∧ c.Counts c₁ l := by
  cases hs with
  | atOnce he => exact he.counts
  | later hs => exact ⟨[], (List.append_nil _).symm, .none rfl rfl⟩

theorem Fails.counts {e : Failure} (hs : c.Sends n waiter c₁)
    (hf : c.Fails n e ((c₁.record (.unsent n e)).yield.forgetAny waiter) c') :
    ∃ l, c'.journal = c.journal ++ l ∧ c.Counts c' l := by
  obtain ⟨l, hj, hc⟩ := hs.counts
  obtain ⟨l', hj', hl'⟩ := journal_forgetAny (c₁.record (.unsent n e)).yield waiter
  have hx : ((c₁.record (.unsent n e)).yield.forgetAny waiter).journal =
      c.journal ++ (l ++ .unsent n e :: l') := by
    rw [hj', journal_yield, journal_record, hj]
    simp
  have hi : c₁.write.nextId ≤
      ((c₁.record (.unsent n e)).yield.forgetAny waiter).write.nextId := by
    rw [nextId_forgetAny]
    exact Nat.le_of_eq (WritePath.nextId_leave _).symm
  have hu : ∀ i ∈ (.unsent n e :: l' : List Incident), i.registered? = none ∧ i.sending? = none := by
    intro i hi
    rcases List.mem_cons.1 hi with rfl | hi
    · exact ⟨rfl, rfl⟩
    · obtain ⟨id', rfl⟩ := hl' i hi
      exact ⟨rfl, rfl⟩
  cases hf with
  | ends _ => exact ⟨_, hx, hc.append (fun i hi => (hu i hi).1) (fun i hi => (hu i hi).2) hi⟩
  | closes _ =>
    have hc' := hc.append (fun i hi => (hu i hi).1) (fun i hi => (hu i hi).2) hi
    refine ⟨(l ++ .unsent n e :: l') ++ [.closing], ?_, hc'.append ?_ ?_ (Nat.le_refl _)⟩
    · rw [← List.append_assoc, ← hx]
      rfl
    · simp [Incident.registered?]
    · simp [Incident.sending?]

/-- **A request is registered under the next number by the call that then sets out to send it.** -/
theorem Move.counts (hm : c.Move c') : ∃ l, c'.journal = c.journal ++ l ∧ c.Counts c' l := by
  cases hm.advances with
  | aside ha =>
    obtain ⟨l, hj, hl⟩ := ha.journal
    exact ⟨l, hj, .aside fun i hi => Incident.unnumbered_of_caller? (hl i hi).1⟩
  | begin he hs =>
    obtain ⟨l, hj, hl⟩ := he.counts
    exact ⟨l, hj, hl.congr rfl⟩
  | sent hs => exact ⟨_, rfl, .aside (by simp [Incident.registered?, Incident.sending?])⟩
  | fail hs he hf => exact hf.counts hs
  | @conclude n due w r hs hr =>
    obtain ⟨l, hj, hl⟩ := journal_conclude c n w r
    exact ⟨l, hj, .aside fun i hi => (hl i hi).unnumbered⟩
  | @drop c' n waiter hn hp ha =>
    obtain ⟨l, hj, hl⟩ := ha.journal
    obtain ⟨l', hj', hl'⟩ := journal_forgetAny c waiter
    refine ⟨l' ++ l, ?_, .aside fun i hi => ?_⟩
    · rw [hj, journal_setStage, hj', List.append_assoc]
    · rcases List.mem_append.1 hi with hi | hi
      · obtain ⟨id', rfl⟩ := hl' i hi
        exact ⟨rfl, rfl⟩
      · exact Incident.unnumbered_of_caller? (hl i hi).1
  | @breakOff d ha =>
    obtain ⟨l, hj, hl⟩ := ha.journal
    refine ⟨l ++ [.closing], ?_, .aside fun i hi => ?_⟩
    · change d.journal ++ [.closing] = _
      rw [hj, List.append_assoc]
    · rcases List.mem_append.1 hi with hi | hi
      · exact Incident.unnumbered_of_caller? (hl i hi).1
      · rw [List.mem_singleton.1 hi]
        exact ⟨rfl, rfl⟩
  | route f hq =>
    obtain ⟨l, hj, hl⟩ := journal_route c f
    refine ⟨l, ?_, .aside fun i hi => (hl i hi).unnumbered⟩
    rw [← journal_eq hq, ← journal_eq (core_route c f), hj]

/-- **Requests are numbered in the order in which calls set out to send them**: the ids that calls
are registered under are growing numbers, and the requests that they set out to send are the
registered ones. -/
structure Numbered (c : Client) : Prop where
  order : ∃ ks : List Nat, (registrations c.journal).map (·.2) = ks.map toString ∧
    ks.Pairwise (· < ·) ∧ ∀ k ∈ ks, k < c.write.nextId
  sent : requests (sendings c.journal) = registrations c.journal

theorem Numbered.move (hm : c.Move c') (h : Numbered c) : Numbered c' := by
  obtain ⟨l, hj, hl⟩ := hm.counts
  obtain ⟨ks, hks, hp, hlt⟩ := h.order
  have hreg : registrations c'.journal = registrations c.journal ++ registrations l := by
    rw [hj, registrations_append]
  have hreq : requests (sendings c'.journal) =
      registrations c.journal ++ requests (sendings l) := by
    rw [hj, sendings_append, requests_append, h.sent]
  cases hl with
  | none hr hs =>
    rw [hr, List.append_nil] at hreg
    rw [hs, List.append_nil] at hreq
    exact ⟨⟨ks, hreg ▸ hks, hp, fun k hk => Nat.lt_of_lt_of_le (hlt k hk) hm.nextId_le⟩,
      hreq.trans hreg.symm⟩
  | @next n hr hs hi =>
    refine ⟨⟨ks ++ [c.write.nextId], ?_, ?_, fun k hk => ?_⟩, by rw [hreg, hreq, hr, hs]⟩
    · rw [hreg, hr, List.map_append, hks, List.map_append]
      rfl
    · refine List.pairwise_append.2 ⟨hp, List.pairwise_singleton _ _, fun k hk k' hk' => ?_⟩
      rw [List.mem_singleton.1 hk']
      exact hlt k hk
    · rcases List.mem_append.1 hk with hk | hk
      · exact Nat.lt_trans (hlt k hk) hi
      · rwa [List.mem_singleton.1 hk]

theorem Possible.numbered (h : Possible config c) : Numbered c :=
  Onward.induct Numbered.move (fun _ hx => ⟨hx.order, hx.sent⟩) h
    ⟨⟨[], rfl, .nil, nofun⟩, rfl⟩

theorem Numbered.nodup (h : Numbered c) : ((registrations c.journal).map (·.2)).Nodup := by
  obtain ⟨ks, hks, hp, -⟩ := h.order
  rw [hks]
  exact (hp.imp Nat.ne_of_lt).map toString fun _ _ hne he => hne (toString_inj he)

end Client

end DocWire
