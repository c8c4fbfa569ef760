import Mathlib.Data.List.TakeWhile
import DocWire.Proofs.Client.Orphans
import DocWire.Proofs.Message.Routing

/-! # What a callback is given

The callback of a subscription is given the events of the pushes that are routed from the
acknowledgment of its request on, until its subscription is closed (`Incident.pushed`). What the
callback has been given is a function of the journal, and so is what has been pushed for it; that
they are the same is kept by every move (`Heard`). Nothing that concerns other subscriptions enters
into it (`pushed_filter`). -/

namespace DocWire

namespace Incident

/-- The event that an incident gives to the callback of a call. -/
def heard? (n : Nat) : Incident → Option ChangeEvent
  | .notified m event => if m = n then some event else none
  | _ => none

/-- The event that an incident brings for an id. -/
def event? (id : String) : Incident → Option ChangeEvent
  | .routed f => f.event? id
  | _ => none

/-- Whether an incident closes the subscription of an id, as a test. -/
def shuts (id : String) : Incident → Bool
  | .unsubscribed id' | .rejected id' => id' == id
  | .closing => true
  | _ => false

/-- Whether an incident concerns the subscription of an id: it brings an event for it, or closes it. -/
def concerns (id : String) (i : Incident) : Bool := (i.event? id).isSome || i.shuts id

/-- The events that are brought for an id until its subscription is closed. -/
def pushed (id : String) (since : List Incident) : List ChangeEvent :=
  (since.takeWhile fun i => !i.shuts id).filterMap (event? id)

/-- The events that the callback of a call has been given. -/
def heard (n : Nat) (j : List Incident) : List ChangeEvent := j.filterMap (heard? n)

variable {i : Incident} {j s : List Incident} {n : Nat} {id : String}

theorem shuts_iff : i.shuts id = true ↔ i.Shuts id := by
  cases i <;> simp [shuts, Shuts]

theorem event?_eq_none_of_ne (hi : ∀ f, i ≠ .routed f) : i.event? id = none := by
  cases i with
  | routed f => exact absurd rfl (hi f)
  | _ => rfl

theorem heard?_eq_none_of_not_ofFeed (hi : ¬ i.OfFeed) : i.heard? n = none := by
  cases i with
  | notified m event => exact absurd trivial hi
  | _ => rfl

@[simp] theorem heard_concat : heard n (j ++ [i]) = heard n j ++ (i.heard? n).toList := by
  unfold heard
  rw [List.filterMap_append]
  cases hi : i.heard? n <;> simp [hi]

/-- While nothing has closed a subscription, each incident adds the event that it brings. -/
theorem pushed_concat_of_open (hs : ∀ i ∈ s, ¬ i.Shuts id) :
    pushed id (s ++ [i]) = pushed id s ++ (i.event? id).toList := by
  have ho : ∀ i ∈ s, (!i.shuts id) = true := fun i hi => by
    simpa [← shuts_iff] using hs i hi
  unfold pushed
  rw [List.takeWhile_append_of_pos ho, List.filterMap_append, List.takeWhile_eq_self_iff.2 ho]
  cases i with
  | routed f => cases he : f.event? id <;> simp [shuts, event?, he]
  | _ => simp [List.takeWhile_cons, event?, apply_ite]

theorem pushed_concat_of_shut {k : Incident} (hk : k ∈ s) (hs : k.Shuts id) :
    pushed id (s ++ [i]) = pushed id s := by
  unfold pushed
  rw [List.takeWhile_append]
  split
  next hl =>
    have ho := List.takeWhile_eq_self_iff.1 (List.takeWhile_sublist _ |>.eq_of_length hl) k hk
    rw [shuts_iff.2 hs] at ho
    cases ho
  next => rfl

/-- What does not concern a subscription changes nothing for it. -/
theorem pushed_filter : pushed id (s.filter (concerns id)) = pushed id s := by
  induction s with
  | nil => rfl
  | cons i s ih =>
    unfold pushed at ih ⊢
    cases hs : i.shuts id with
    | true => simp [concerns, hs]
    | false =>
      cases he : i.event? id with
      | none => simp [concerns, hs, he, ih]
      | some event => simp [concerns, hs, he, ih]

end Incident

open Incident (heard pushed concerns)

variable {j l s s' : List Incident} {i : Incident} {n : Nat} {id : String} {f : Frame}

/-- What has been written down since a request was acknowledged. -/
def Since (j : List Incident) (n : Nat) (id : String) (s : List Incident) : Prop :=
  ∃ before f, j = before ++ .routed f :: s ∧ Registered before n id ∧ f.Acknowledges id

theorem acknowledged_iff : Acknowledged j n id ↔ ∃ s, Since j n id s :=
  ⟨fun ⟨before, f, s, h⟩ => ⟨s, before, f, h⟩, fun ⟨s, before, f, h⟩ => ⟨before, f, s, h⟩⟩

theorem subscribed_iff : Subscribed j n id ↔ ∃ s, Since j n id s ∧ ∀ i ∈ s, ¬ i.Shuts id :=
  ⟨fun ⟨before, f, s, hj, hg, hf, hs⟩ => ⟨s, ⟨before, f, hj, hg, hf⟩, hs⟩,
    fun ⟨s, ⟨before, f, hj, hg, hf⟩, hs⟩ => ⟨before, f, s, hj, hg, hf, hs⟩⟩

theorem Since.acknowledged (h : Since j n id s) : Acknowledged j n id := acknowledged_iff.2 ⟨s, h⟩

theorem Acknowledged.resolved (h : Acknowledged j n id) : ∃ reply, Resolved j n id reply := by
  obtain ⟨before, f, since, hj, hg, ⟨⟨reply, hf⟩, -⟩⟩ := h
  exact ⟨reply, before, f, since, hj, hg, hf⟩

/-- What has been written down since the acknowledgment, one incident later. -/
theorem since_concat : Since (j ++ [i]) n id s ↔
    s = [] ∧ (∃ f, i = .routed f ∧ Registered j n id ∧ f.Acknowledges id) ∨
      ∃ s', s = s' ++ [i] ∧ Since j n id s' := by
  constructor
  · rintro ⟨before, f, hj, hg, hf⟩
    rcases List.eq_nil_or_concat s with rfl | ⟨s', i', rfl⟩
    · obtain ⟨hj, hi⟩ := List.append_inj' hj rfl
      exact .inl ⟨rfl, f, List.head_eq_of_cons_eq hi, hj ▸ hg, hf⟩
    · rw [List.concat_eq_append, ← List.cons_append, ← List.append_assoc] at hj
      obtain ⟨hj, hi⟩ := List.append_inj' hj rfl
      refine .inr ⟨s', ?_, before, f, hj, hg, hf⟩
      rw [List.concat_eq_append, hi]
  · rintro (⟨rfl, f, rfl, hg, hf⟩ | ⟨s', rfl, before, f, rfl, hg, hf⟩)
    · exact ⟨j, f, rfl, hg, hf⟩
    · exact ⟨before, f, by simp, hg, hf⟩

theorem since_concat_of_ne (hi : ∀ f, i ≠ .routed f) :
    Since (j ++ [i]) n id s ↔ ∃ s', s = s' ++ [i] ∧ Since j n id s' := by
  rw [since_concat]
  exact ⟨fun h => h.resolve_left fun ⟨_, f, hf, _⟩ => hi f hf, .inr⟩

/-- **The callback of a call has been given what it should**: since the request was acknowledged, what
was brought for its subscription until that was closed, and before that nothing. -/
structure Heard (j : List Incident) (n : Nat) : Prop where
  once : ∀ {id s s'}, Since j n id s → Since j n id s' → s = s'
  exact : ∀ {id s}, Since j n id s → heard n j = pushed id s
  silent : (∀ id, ¬ Acknowledged j n id) → heard n j = []

namespace Heard

theorem nil : Heard [] n := by
  have hn : ∀ {id s}, ¬ Since [] n id s := fun h => by
    obtain ⟨before, f, hj, -⟩ := h
    simp at hj
  exact ⟨fun h => absurd h hn, fun h => absurd h hn, fun _ => rfl⟩

/-- An incident that gives the callback nothing, if nothing is brought for it: should it acknowledge
the request, then it is the first to do so. -/
theorem concat (h : Heard j n) (hh : i.heard? n = none)
    (he : ∀ id, Subscribed j n id → i.event? id = none)
    (ha : ∀ f id, i = .routed f → Registered j n id → f.Acknowledges id →
      ∀ id', ¬ Acknowledged j n id') : Heard (j ++ [i]) n := by
  have hx : heard n (j ++ [i]) = heard n j := by simp [hh]
  refine ⟨fun {id s s'} hs hs' => ?_, fun {id s} hs => ?_, fun hn => ?_⟩
  · rcases since_concat.1 hs with ⟨rfl, f, hi, hg, hf⟩ | ⟨t, rfl, ht⟩
    · rcases since_concat.1 hs' with ⟨rfl, -⟩ | ⟨t', rfl, ht'⟩
      · rfl
      · exact absurd ht'.acknowledged (ha f id hi hg hf id)
    · rcases since_concat.1 hs' with ⟨rfl, f, hi, hg, hf⟩ | ⟨t', rfl, ht'⟩
      · exact absurd ht.acknowledged (ha f id hi hg hf id)
      · rw [h.once ht ht']
  · rw [hx]
    rcases since_concat.1 hs with ⟨rfl, f, hi, hg, hf⟩ | ⟨t, rfl, ht⟩
    · exact h.silent (ha f id hi hg hf)
    · rw [h.exact ht]
      by_cases ho : ∀ i ∈ t, ¬ i.Shuts id
      · rw [Incident.pushed_concat_of_open ho, he id (subscribed_iff.2 ⟨t, ht, ho⟩)]
        simp
      · obtain ⟨k, hk, hsk⟩ : ∃ k ∈ t, k.Shuts id := by simpa using ho
        exact (Incident.pushed_concat_of_shut hk hsk).symm
  · rw [hx]
    refine h.silent fun id hb => hn id ?_
    obtain ⟨s, hs⟩ := acknowledged_iff.1 hb
    exact acknowledged_iff.2 ⟨s ++ [i], since_concat.2 (.inr ⟨s, rfl, hs⟩)⟩

/-- An incident that is no frame gives the callback nothing and brings nothing. -/
theorem concat_of_ne (h : Heard j n) (hh : i.heard? n = none) (hi : ∀ f, i ≠ .routed f) :
    Heard (j ++ [i]) n :=
  h.concat hh (fun _ _ => Incident.event?_eq_none_of_ne hi) fun f _ hf => absurd hf (hi f)

theorem append (h : Heard j n) (hl : ∀ i ∈ l, ¬ i.OfFeed) : Heard (j ++ l) n := by
  induction l using List.reverseRecOn with
  | nil => rwa [List.append_nil]
  | append_singleton l i ih =>
    have hi : ¬ i.OfFeed := hl i (by simp)
    rw [← List.append_assoc]
    refine (ih fun k hk => hl k (by simp [hk])).concat_of_ne
      (Incident.heard?_eq_none_of_not_ofFeed hi) ?_
    rintro f rfl
    exact hi trivial

/-- A push that the callback is given while its subscription is open. -/
theorem push (h : Heard j n) {note : ChangeNotification} (hf : f.push? = some note)
    (hs : Subscribed j n note.id) (hid : ∀ {id}, Acknowledged j n id → id = note.id) :
    Heard (j ++ [.routed f] ++ [.notified n note.event]) n := by
  obtain ⟨s₀, hs₀, ho⟩ := subscribed_iff.1 hs
  have hn : ∀ g, .notified n note.event ≠ Incident.routed g := nofun
  have hsince : ∀ {id s}, Since (j ++ [.routed f] ++ [.notified n note.event]) n id s →
      id = note.id ∧ s = s₀ ++ [.routed f] ++ [.notified n note.event] := fun {id s} hx => by
    obtain ⟨t, rfl, ht⟩ := (since_concat_of_ne hn).1 hx
    rcases since_concat.1 ht with ⟨-, g, hg, -, ha⟩ | ⟨t', rfl, ht'⟩
    · obtain rfl := Incident.routed.inj hg
      rw [ha.push?_eq_none] at hf
      cases hf
    · obtain rfl := hid ht'.acknowledged
      rw [h.once ht' hs₀]
      exact ⟨rfl, rfl⟩
  refine ⟨fun hx hx' => ?_, fun {id s} hx => ?_, fun ha => ?_⟩
  · rw [(hsince hx).2, (hsince hx').2]
  · obtain ⟨rfl, rfl⟩ := hsince hx
    have ho' : ∀ i ∈ s₀ ++ [.routed f], ¬ i.Shuts note.id := by
      intro i hi
      rcases List.mem_append.1 hi with hi | hi
      · exact ho i hi
      · rw [List.mem_singleton.1 hi]
        exact fun hx => hx
    have he : f.event? note.id = some note.event := Frame.event?_eq_some.2 hf
    rw [Incident.pushed_concat_of_open ho', Incident.pushed_concat_of_open ho, ← h.exact hs₀,
      Incident.heard_concat, Incident.heard_concat]
    simp [Incident.heard?, Incident.event?, he]
  · refine absurd ?_ (ha note.id)
    exact acknowledged_iff.2 ⟨_, (since_concat_of_ne hn).2 ⟨_, rfl, since_concat.2
      (.inr ⟨s₀, rfl, hs₀⟩)⟩⟩

end Heard

namespace Client

variable {c c' : Client} {config : Config}

/-- A request that is registered has not been acknowledged, under whatever id. -/
theorem Correlated.not_acknowledged (h : Correlated c) (hg : Registered c.journal n id)
    (id' : String) : ¬ Acknowledged c.journal n id' := fun ha => by
  obtain ⟨reply, hr⟩ := ha.resolved
  obtain rfl := h.sameId hg.mem hr.mem
  obtain ⟨-, -, -, -, -, hn⟩ := h.of_registered hg
  exact hn reply hr

/-- **What callbacks have been given stays right with every move.** -/
theorem heard_move (hm : c.Move c') (hc : Correlated c) (hd : Feeding c)
    (ht : ∀ id, .registered n id ∈ c.journal → c.targetFor n ≠ none) (h : Heard c.journal n) :
    Heard c'.journal n := by
  have first : ∀ {f : Frame} g id, Incident.routed f = .routed g → Registered c.journal n id →
      g.Acknowledges id → ∀ id', ¬ Acknowledged c.journal n id' :=
    fun {f} g id _ hg _ => hc.not_acknowledged hg
  have routed : ∀ {f : Frame}, (∀ note, f.push? = some note → ¬ Subscribed c.journal n note.id) →
      Heard (c.journal ++ [.routed f]) n := fun {f} hp =>
    h.concat rfl (fun id hs => Option.eq_none_iff_forall_ne_some.2 fun event he =>
      hp _ (Frame.event?_eq_some.1 he) hs) first
  cases hc.feeds hm with
  | aside hj hl hr =>
    rw [hj]
    exact h.append hl
  | shut hj hl hi hr =>
    rw [hj]
    rcases hi with rfl | rfl
    · exact (h.append hl).concat_of_ne rfl nofun
    · exact (h.append hl).concat_of_ne rfl nofun
  | cleared hj hl hr =>
    rw [hj]
    exact (h.append hl).concat_of_ne rfl nofun
  | passed hj hp ha hr ho =>
    rw [hj]
    refine routed fun note hf hs => ?_
    obtain ⟨target, htn⟩ := Option.ne_none_iff_exists'.1 (ht _ hs.mem)
    have hx := (hd.routes note.id target).2 ⟨n, htn, hs⟩
    rw [hp note hf] at hx
    cases hx
  | @pushed f note target hf htr hj hr ho =>
    rw [hj]
    obtain ⟨m, htm, hs⟩ := (hd.routes _ _).1 htr
    rw [call_of_targetFor htm]
    by_cases hn : m = n
    · subst hn
      exact h.push hf hs fun ha => by
        obtain ⟨reply, hx⟩ := ha.resolved
        exact hc.sameId hx.mem hs.mem
    · refine (routed fun note' hf' hs' => ?_).concat_of_ne (if_neg hn) nofun
      obtain rfl := Option.some.inj (hf.symm.trans hf')
      exact hn (hc.sameCall hs.mem hs'.mem)
  | opened hj hg hf htm hr ho =>
    rw [hj]
    refine routed fun note hp => ?_
    rw [hf.push?_eq_none] at hp
    cases hp

theorem Possible.heard (h : Possible config c)
    (ht : ∀ id, .registered n id ∈ c.journal → c.targetFor n ≠ none) : Heard c.journal n := by
  refine (h.induct (P := fun c => Correlated c ∧ Feeding c ∧
      ∀ n, (∀ id, .registered n id ∈ c.journal → c.targetFor n ≠ none) → Heard c.journal n)
    (fun {c c'} hm ⟨hc, hd, hx⟩ => ⟨hc.move hm, hd.move hm hc, fun n ht => ?_⟩)
    (fun {c} job ⟨hc, hd, hx⟩ => ⟨(Aside.addCall _ job).correlated hc, hd.addCall hc job,
      fun n ht => hx n fun id hg => ?_⟩)
    ⟨Correlated.initial config, Feeding.initial config, fun n _ => .nil⟩).2.2 n ht
  · have ht : ∀ id, .registered n id ∈ c.journal → c.targetFor n ≠ none := fun id hg => by
      obtain ⟨l, hj, -⟩ := hm.adds
      rw [← targetFor_congr (hm.job_eq n)]
      exact ht id (hj ▸ List.mem_append_left l hg)
    exact heard_move hm hc hd ht (hx n ht)
  · have hn : c.calls[n]? ≠ none := fun hn => by
      have hi := hc.tells n
      rw [phase_eq_idle hn] at hi
      exact hi _ hg rfl
    rw [← targetFor_congr ((Aside.addCall c job).job n hn)]
    exact ht id hg

theorem route_push (c : Client) {note : ChangeNotification} {target : Target}
    (hf : f.push? = some note) (ht : c.routes.get? note.id = some target) :
    c.route f = (c.record (.routed f)).record (.notified target.call note.event) := by
  unfold Frame.push? Frame.envelope? at hf
  unfold Client.route routePayload
  cases he : f.header.encoding? with
  | none => simp [he] at hf
  | some encoding =>
    rw [he, Option.bind_some] at hf
    dsimp only at hf ⊢
    cases hv : encoding.decode? Envelope.read? f.payload with
    | none => simp [hv] at hf
    | some envelope =>
      rw [hv] at hf
      dsimp only at hf ⊢
      split at hf
      next hc =>
        obtain ⟨hc, hi⟩ := Bool.and_eq_true_iff.1 hc
        obtain ⟨id, hi⟩ := Option.isSome_iff_exists.1 hi
        have ht : (c.record (.routed f)).routes.get? note.id = some target := ht
        simp [hi, hc, hf, dispatch, ht]
      next => cases hf

/-! ### The feed of a subscription -/

/-- **What the callback of a subscription is given**: all that has been brought for its id since its
request was acknowledged and until its subscription was closed, in order, and before that nothing.
It is the same in all runs in which the same has happened to the subscription (`isolated`), so that
other subscriptions have no part in it. To give something to a callback, be it one that fails,
changes nothing else. -/
structure Feed (c : Client) (n : Nat) : Prop where
  exact : ∀ {id s}, Since c.journal n id s → heard n c.journal = pushed id s
  silent : (∀ id, ¬ Acknowledged c.journal n id) → heard n c.journal = []
  isolated : ∀ {config' : Config} {c' : Client} {n' : Nat} {id s s'}, Possible config' c' →
    c'.Subscribes n' → Since c.journal n id s → Since c'.journal n' id s' →
    s.filter (concerns id) = s'.filter (concerns id) → heard n' c'.journal = heard n c.journal
  steady : ∀ {f note target}, f.push? = some note → c.routes.get? note.id = some target →
    c.route f = (c.record (.routed f)).record (.notified target.call note.event)

/-- **Subscription feeds are exact, ordered and isolated.** -/
theorem Possible.hears (h : Possible config c) (hn : c.Subscribes n) : c.Feed n where
  exact := (h.heard fun _ _ => subscribes_iff.1 hn).exact
  silent := (h.heard fun _ _ => subscribes_iff.1 hn).silent
  isolated := fun {config' c' n' id s s'} h' hn' hs hs' hx => by
    have hc := (h.heard fun _ _ => subscribes_iff.1 hn).exact hs
    have hc' := (h'.heard fun _ _ => subscribes_iff.1 hn').exact hs'
    rw [hc, hc', ← Incident.pushed_filter, ← hx, Incident.pushed_filter]
  steady := route_push c

/-- The acknowledgment of the subscription with a digit as its id. -/
def acknowledgment (digit : UInt8) : List UInt8 :=
  [0, 0, 0, 24, 2, 1, 0x82, 0xa2, 0x69, 0x64, 0xa1, digit, 0xa4, 0x74, 0x79, 0x70, 0x65, 0xaa, 0x73,
    0x75, 0x62, 0x73, 0x63, 0x72, 0x69, 0x62, 0x65, 0x64]

/-- A push for the subscription with a digit as its id: the deletion of nothing. -/
def deletion (digit : UInt8) : List UInt8 := firstPush.set 11 digit

/-- A client with two subscriptions that are both told something right after they are acknowledged.
The callback of the first fails, and then its caller closes it. -/
def following : Client :=
  (initial .default).performAll
    [.start .connect, .feed [.chunk ([0, 1, 1] ++ List.replicate 16 7)],
      .start (.operation (.subscribe "q" true)), .start (.operation (.subscribe "q" false)),
      .feed [.chunk (acknowledgment 0x31 ++ deletion 0x31 ++ acknowledgment 0x32 ++ deletion 0x32)],
      .start (.unsubscribe (some "1")), .feed [.chunk (deletion 0x31 ++ deletion 0x32)]]

theorem hears_following : following.Subscribes 2 ∧ following.Feed 2 ∧
    (heard 1 following.journal).length = 1 ∧ (heard 2 following.journal).length = 2 := by
  have hj : following.Subscribes 2 := subscribes_iff.2 (by decide +kernel)
  exact ⟨hj, (reachable_performAll _ _).possible.hears hj, by decide +kernel, by decide +kernel⟩

end Client

end DocWire
