import DocWire.Proofs.Client.Sendings

/-! # Subscriptions, as the journal tells them

A subscription is open from the reply that acknowledges its request until it is closed by its caller,
turned down, or closing begins (`Subscribed`). A move that has to do with subscriptions opens a route,
closes one or all of them, or gives a push to a callback: `Feeds` lists what a move can do to the
routes together with what it writes down. The routes are those of the open subscriptions
(`Feeding`). -/

namespace DocWire

open DocWire.Correlator (Waiter Slot)

/-- A frame acknowledges the request of an id: it is a reply to it that tells of no failure. -/
def Frame.Acknowledges (f : Frame) (id : String) : Prop :=
  (∃ reply, f.reply? = some (id, reply)) ∧ f.tellsOfError = false

theorem Frame.Acknowledges.push?_eq_none {f : Frame} {id : String} (h : f.Acknowledges id) :
    f.push? = none := by
  obtain ⟨⟨reply, hf⟩, -⟩ := h
  exact push?_eq_none_of_reply? hf

namespace Incident

/-- Whether an incident closes the subscription of an id. -/
def Shuts (id : String) : Incident → Prop
  | .unsubscribed id' | .rejected id' => id' = id
  | .closing => True
  | _ => False

/-- Whether an incident has to do with subscriptions. -/
def OfFeed : Incident → Prop
  | .routed _ | .notified _ _ | .unsubscribed _ | .rejected _ | .closing => True
  | _ => False

theorem Shuts.ofFeed {i : Incident} {id : String} (h : i.Shuts id) : i.OfFeed := by
  cases i <;> trivial

end Incident

variable {j l : List Incident} {i : Incident} {n : Nat} {id : String}

/-- A request has been acknowledged while a call was registered under its id. -/
def Acknowledged (j : List Incident) (n : Nat) (id : String) : Prop :=
  ∃ before f since, j = before ++ .routed f :: since ∧ Registered before n id ∧ f.Acknowledges id

/-- A request has been acknowledged while a call was registered under its id, and nothing has closed
its subscription since. -/
def Subscribed (j : List Incident) (n : Nat) (id : String) : Prop :=
  ∃ before f since, j = before ++ .routed f :: since ∧ Registered before n id ∧ f.Acknowledges id ∧
    ∀ i ∈ since, ¬ i.Shuts id

theorem Subscribed.acknowledged (h : Subscribed j n id) : Acknowledged j n id := by
  obtain ⟨before, f, since, hj, hg, hf, -⟩ := h
  exact ⟨before, f, since, hj, hg, hf⟩

theorem Subscribed.resolved (h : Subscribed j n id) : ∃ reply, Resolved j n id reply := by
  obtain ⟨before, f, since, hj, hg, ⟨⟨reply, hf⟩, -⟩, -⟩ := h
  exact ⟨reply, before, f, since, hj, hg, hf⟩

theorem Subscribed.mem (h : Subscribed j n id) : .registered n id ∈ j :=
  h.resolved.choose_spec.mem

theorem not_subscribed_nil : ¬ Subscribed [] n id := fun h => by simpa using h.mem

theorem subscribed_concat : Subscribed (j ++ [i]) n id ↔
    (∃ f, i = .routed f ∧ Registered j n id ∧ f.Acknowledges id) ∨
      Subscribed j n id ∧ ¬ i.Shuts id := by
  constructor
  · rintro ⟨before, f, since, hj, hg, hf, hs⟩
    rcases List.eq_nil_or_concat since with rfl | ⟨since', i', rfl⟩
    · left
      obtain ⟨hj, hi⟩ := List.append_inj' hj rfl
      exact ⟨f, List.head_eq_of_cons_eq hi, hj ▸ hg, hf⟩
    · right
      rw [List.concat_eq_append, ← List.cons_append, ← List.append_assoc] at hj
      obtain ⟨hj, hi⟩ := List.append_inj' hj rfl
      have hi : i = i' := List.head_eq_of_cons_eq hi
      refine ⟨⟨before, f, since', hj, hg, hf, fun k hk => hs k (by simp [hk])⟩, ?_⟩
      rw [hi]
      exact hs i' (by simp)
  · rintro (⟨f, rfl, hg, hf⟩ | ⟨⟨before, f, since, rfl, hg, hf, hs⟩, hi⟩)
    · exact ⟨j, f, [], rfl, hg, hf, by simp⟩
    · refine ⟨before, f, since ++ [i], by simp, hg, hf, fun k hk => ?_⟩
      rcases List.mem_append.1 hk with hk | hk
      · exact hs k hk
      · rw [List.mem_singleton.1 hk]
        exact hi

theorem subscribed_concat_of_ne (hi : ∀ f, i ≠ .routed f) :
    Subscribed (j ++ [i]) n id ↔ Subscribed j n id ∧ ¬ i.Shuts id := by
  rw [subscribed_concat]
  exact ⟨fun h => h.resolve_left fun ⟨f, hf, _⟩ => hi f hf, .inr⟩

theorem not_subscribed_closing : ¬ Subscribed (j ++ [.closing]) n id := fun hs =>
  ((subscribed_concat_of_ne (i := .closing) nofun).1 hs).2 trivial

theorem subscribed_append (hl : ∀ i ∈ l, ¬ i.OfFeed) :
    Subscribed (j ++ l) n id ↔ Subscribed j n id := by
  induction l using List.reverseRecOn with
  | nil => rw [List.append_nil]
  | append_singleton l i ih =>
    have hi : ¬ i.OfFeed := hl i (by simp)
    have hn : ∀ f, i ≠ .routed f := by
      rintro f rfl
      exact hi trivial
    rw [← List.append_assoc, subscribed_concat_of_ne hn, ih fun k hk => hl k (by simp [hk])]
    exact ⟨fun h => h.1, fun h => ⟨h, fun hs => hi hs.ofFeed⟩⟩

namespace Client

variable {c c' c₁ d : Client} {f : Frame} {waiter : Option Waiter} {w : Waiter}

/-- What a move does to the routes, and what it writes down about them: nothing; it closes one
subscription or all of them; or it routes a frame, which is passed over, brings a push to a
callback, or opens a subscription by its acknowledgment. -/
inductive Feeds (c c' : Client) : Prop
  | aside {l : List Incident} (hj : c'.journal = c.journal ++ l) (hl : ∀ i ∈ l, ¬ i.OfFeed)
      (hr : c'.routes = c.routes)
  | shut {l : List Incident} {i : Incident} {id : String} (hj : c'.journal = c.journal ++ l ++ [i])
      (hl : ∀ i ∈ l, ¬ i.OfFeed) (hi : i = .unsubscribed id ∨ i = .rejected id)
      (hr : c'.routes = (c.routes.unsubscribe id).2)
  | cleared {l : List Incident} (hj : c'.journal = c.journal ++ l ++ [.closing])
      (hl : ∀ i ∈ l, ¬ i.OfFeed) (hr : c'.routes = .empty)
  | passed {f : Frame} (hj : c'.journal = c.journal ++ [.routed f])
      (hp : ∀ note, f.push? = some note → c.routes.get? note.id = none)
      (ha : ∀ n id, Registered c.journal n id → f.Acknowledges id → c.targetFor n = none)
      (hr : c'.routes = c.routes) (ho : c'.outline = c.outline)
  | pushed {f : Frame} {note : ChangeNotification} {target : Target} (hf : f.push? = some note)
      (ht : c.routes.get? note.id = some target)
      (hj : c'.journal = c.journal ++ [.routed f] ++ [.notified target.call note.event])
      (hr : c'.routes = c.routes) (ho : c'.outline = c.outline)
  | opened {f : Frame} {n : Nat} {id : String} {target : Target}
      (hj : c'.journal = c.journal ++ [.routed f]) (hg : Registered c.journal n id)
      (hf : f.Acknowledges id) (ht : c.targetFor n = some target)
      (hr : c'.routes = (c.routes.subscribe id target).2) (ho : c'.outline = c.outline)

/-- **The routes are those of the open subscriptions.** -/
structure Feeding (c : Client) : Prop where
  routes : ∀ id target, c.routes.get? id = some target ↔
    ∃ n, c.targetFor n = some target ∧ Subscribed c.journal n id

/-! ### What a move does to the routes -/

theorem routes_eq (h : c.core = c'.core) : c.routes = c'.routes := by
  have hc := congrArg routes h
  exact hc

theorem Feeds.congr (h : c.Feeds d) (hq : c'.core = d.core) : c.Feeds c' := by
  have hj := journal_eq hq
  have hr := routes_eq hq
  have ho := outline_core hq
  cases h with
  | aside hj' hl hr' => exact .aside (hj.trans hj') hl (hr.trans hr')
  | shut hj' hl hi hr' => exact .shut (hj.trans hj') hl hi (hr.trans hr')
  | cleared hj' hl hr' => exact .cleared (hj.trans hj') hl (hr.trans hr')
  | passed hj' hp ha hr' ho' => exact .passed (hj.trans hj') hp ha (hr.trans hr') (ho.trans ho')
  | pushed hf ht hj' hr' ho' => exact .pushed hf ht (hj.trans hj') (hr.trans hr') (ho.trans ho')
  | opened hj' hg hf ht hr' ho' =>
    exact .opened (hj.trans hj') hg hf ht (hr.trans hr') (ho.trans ho')

/-- A move that writes nothing down. -/
theorem Feeds.silent (hj : c'.journal = c.journal) (hr : c'.routes = c.routes) : c.Feeds c' :=
  .aside (hj.trans (List.append_nil _).symm) nofun hr

theorem routes_forgetAny (c : Client) (waiter : Option Waiter) :
    (c.forgetAny waiter).routes = c.routes := by
  cases waiter <;> rfl

theorem Enters.aside {m : ClientMessage} (he : c.Enters n m waiter c₁) :
    ∃ l, c₁.journal = c.journal ++ l ∧ (∀ i ∈ l, ¬ i.OfFeed) ∧ c₁.routes = c.routes := by
  cases he with
  | request hs hh hj hr => exact ⟨_, List.append_assoc _ _ _, by simp [Incident.OfFeed], rfl⟩
  | farewell hs hh hj => exact ⟨_, rfl, by simp [Incident.OfFeed], rfl⟩

theorem Sends.aside (hs : c.Sends n waiter c₁) :
    ∃ l, c₁.journal = c.journal ++ l ∧ (∀ i ∈ l, ¬ i.OfFeed) ∧ c₁.routes = c.routes := by
  cases hs with
  | atOnce he => exact he.aside
  | later hs => exact ⟨[], (List.append_nil _).symm, nofun, rfl⟩

theorem Fails.feeds {e : Failure} (hs : c.Sends n waiter c₁)
    (hf : c.Fails n e ((c₁.record (.unsent n e)).yield.forgetAny waiter) c') : c.Feeds c' := by
  obtain ⟨l, hj, hl, hr⟩ := hs.aside
  obtain ⟨l', hj', hl'⟩ := journal_forgetAny (c₁.record (.unsent n e)).yield waiter
  have hx : ((c₁.record (.unsent n e)).yield.forgetAny waiter).journal =
      c.journal ++ (l ++ .unsent n e :: l') := by
    rw [hj']
    simp [hj]
  have hy : ∀ i ∈ l ++ .unsent n e :: l', ¬ i.OfFeed := by
    intro i hi
    rcases List.mem_append.1 hi with hi | hi
    · exact hl i hi
    · rcases List.mem_cons.1 hi with rfl | hi
      · exact id
      · obtain ⟨id', rfl⟩ := hl' i hi
        exact id
  cases hf with
  | ends _ => exact .aside hx hy ((routes_forgetAny _ _).trans hr)
  | closes _ =>
    refine .cleared (l := l ++ .unsent n e :: l') ?_ hy rfl
    exact congrArg (· ++ [Incident.closing]) hx

theorem feeds_conclude (c : Client) (n : Nat) (w : Waiter) (r : Except Failure Reply) :
    c.Feeds (c.conclude n w r) := by
  cases r with
  | error e => exact .aside (l := [.left w.id]) rfl (by simp [Incident.OfFeed]) rfl
  | ok reply =>
    unfold conclude
    dsimp only
    split
    · exact .shut (l := [.left w.id, .answered n reply]) (i := .rejected w.id) (by simp [reject])
        (by simp [Incident.OfFeed]) (.inr rfl) rfl
    · exact .aside (l := [.left w.id, .answered n reply]) (by simp) (by simp [Incident.OfFeed]) rfl

/-- The route that is opened for a reply stays if its waiter is there. -/
theorem routes_handOver {isError : Bool} {reply : Reply} {slot : Slot Target}
    (hv : d.correlator.mailbox slot.ticket = .vacant) :
    (d.handOver id isError reply slot).routes = (d.openRoute id isError slot).2 := by
  have hfound : (d.correlator.fulfill slot reply).1 = true := Correlator.fulfill_eq_true.2 hv
  unfold Client.handOver
  dsimp only
  rw [hfound]
  simp

/-- A reply is handed over to a call that is registered. -/
theorem Correlated.feeds_handOver (h : Correlated c) {reply : Reply} {slot : Slot Target}
    (hf : f.reply? = some (id, reply)) (hl : c.correlator.slots.lookup id = some slot)
    (hj : d.journal = c.journal ++ [.routed f])
    (hk : d.correlator = c.correlator.remove id) (hr : d.routes = c.routes)
    (ho : d.outline = c.outline) : c.Feeds (d.handOver id f.tellsOfError reply slot) := by
  obtain ⟨n, w, hw, hi, rfl, hg, hm⟩ := h.of_lookup hl
  have hp : ∀ note, f.push? = some note → c.routes.get? note.id = none := fun note hx => by
    rw [Frame.push?_eq_none_of_reply? hf] at hx
    cases hx
  have hx : (d.handOver id f.tellsOfError reply ⟨w.ticket, c.targetFor n⟩).routes =
      (d.openRoute id f.tellsOfError ⟨w.ticket, c.targetFor n⟩).2 :=
    routes_handOver (hk ▸ hm)
  have hsame : (c.targetFor n = none ∨ f.tellsOfError = true) →
      c.Feeds (d.handOver id f.tellsOfError reply ⟨w.ticket, c.targetFor n⟩) := by
    intro hn
    refine .passed hj hp (fun m id' hg' ha => ?_) ?_ ho
    · obtain ⟨⟨reply', hf'⟩, he⟩ := ha
      rw [hf] at hf'
      cases hf'
      rw [h.sameCall hg'.mem hg.mem]
      refine hn.resolve_right fun hn => ?_
      rw [hn] at he
      cases he
    · rw [hx, ← hr]
      unfold openRoute
      rcases hn with hn | hn
      · rw [hn]
      · rw [hn]
        cases c.targetFor n <;> rfl
  cases ht : c.targetFor n with
  | none => exact ht ▸ hsame (.inl ht)
  | some target =>
    cases he : f.tellsOfError with
    | true => exact he ▸ ht ▸ hsame (.inr he)
    | false =>
      rw [ht, he] at hx
      exact .opened hj hg ⟨⟨reply, hf⟩, he⟩ ht (hr ▸ hx) ho

theorem Correlated.feeds_routed (h : Correlated c) (f : Frame) :
    c.Feeds ((c.record (.routed f)).routed f) := by
  unfold routed
  cases hf : f.reply? with
  | some p =>
    obtain ⟨id, reply⟩ := p
    dsimp only
    cases hl : (c.record (.routed f)).correlator.slots.lookup id with
    | none =>
      refine .passed rfl (fun note hx => ?_) (fun n id' hg ha => ?_) rfl rfl
      · rw [Frame.push?_eq_none_of_reply? hf] at hx
        cases hx
      · obtain ⟨⟨reply', hf'⟩, -⟩ := ha
        rw [hf] at hf'
        cases hf'
        obtain ⟨w, -, -, -, hl', -⟩ := h.of_registered hg
        exact nomatch hl.symm.trans hl'
    | some slot => exact h.feeds_handOver hf hl rfl rfl rfl rfl
  | none =>
    have ha : ∀ n id, Registered c.journal n id → f.Acknowledges id → c.targetFor n = none := by
      rintro n id - ⟨⟨reply, hf'⟩, -⟩
      rw [hf] at hf'
      cases hf'
    cases hp : f.push? with
    | none => exact .passed rfl (fun note hx => nomatch hp.symm.trans hx) ha rfl rfl
    | some note =>
      dsimp only [dispatch]
      split
      next target ht => exact .pushed hp ht rfl rfl rfl
      next ht =>
        refine .passed rfl (fun note' hx => ?_) ha rfl rfl
        cases hp.symm.trans hx
        exact ht

/-- **What a move does to the routes.** -/
theorem Correlated.feeds (h : Correlated c) (hm : c.Move c') : c.Feeds c' := by
  cases hm with
  | quiet hq => exact .silent (journal_eq hq).symm (routes_eq hq).symm
  | begin he hf hw =>
    obtain ⟨l, hj, hl, hr⟩ := he.aside
    exact .aside hj hl hr
  | sent hs hr => exact .aside (l := [_]) rfl (by simp [Incident.OfFeed]) rfl
  | fail hs he hf => exact hf.feeds hs
  | conclude hs hr => exact feeds_conclude _ _ _ _
  | @dropSend n s hs =>
    obtain ⟨l, hj, hl⟩ := journal_forgetAny c s.waiter
    refine .aside hj (fun i hi => ?_) (routes_forgetAny _ _)
    obtain ⟨id', rfl⟩ := hl i hi
    exact id
  | dropWait hs => exact .aside (l := [_]) rfl (by simp [Incident.OfFeed]) rfl
  | unroute hs hj ha =>
    exact .shut (l := []) (by simp) nofun (.inl rfl) rfl
  | @close t k hm hl =>
    refine .cleared (l := []) ?_ nofun rfl
    rw [List.append_nil]
    cases t <;> rfl
  | @takeHalf t k hs hh hw => cases t <;> exact .silent rfl rfl
  | route hr ha f => exact (h.feeds_routed f).congr (core_route c f)
  | _ => exact .silent rfl rfl

/-- A reply that resolves a call after a move has done so before, or has found the call
registered. -/
theorem Feeds.resolved {reply : Reply} (h : c.Feeds c') (hr : Resolved c'.journal n id reply) :
    Resolved c.journal n id reply ∨ Registered c.journal n id := by
  have aside : ∀ {l : List Incident}, (∀ i ∈ l, ¬ i.OfFeed) →
      Resolved (c.journal ++ l) n id reply → Resolved c.journal n id reply := fun {l} hl hx => by
    induction l using List.reverseRecOn with
    | nil => simpa using hx
    | append_singleton l i ih =>
      have hi : ∀ f, i ≠ .routed f := by
        rintro f rfl
        exact hl (.routed f) (by simp) trivial
      rw [← List.append_assoc, resolved_concat_of_ne hi] at hx
      exact ih (fun k hk => hl k (by simp [hk])) hx
  have routed : ∀ {f : Frame}, Resolved (c.journal ++ [.routed f]) n id reply →
      Resolved c.journal n id reply ∨ Registered c.journal n id := fun hx =>
    (resolved_concat.1 hx).imp_right fun hx => hx.1
  cases h with
  | aside hj hl hx =>
    rw [hj] at hr
    exact .inl (aside hl hr)
  | shut hj hl hi hx =>
    rw [hj, resolved_concat_of_ne (by rcases hi with rfl | rfl <;> nofun)] at hr
    exact .inl (aside hl hr)
  | cleared hj hl hx =>
    rw [hj, resolved_concat_of_ne (i := .closing) nofun] at hr
    exact .inl (aside hl hr)
  | passed hj hp ha hx ho =>
    rw [hj] at hr
    exact routed hr
  | @pushed f note target hf ht hj hx ho =>
    rw [hj, resolved_concat_of_ne (i := .notified target.call note.event) nofun] at hr
    exact routed hr
  | opened hj hg hf ht hx ho =>
    rw [hj] at hr
    exact routed hr

/-! ### The routes and the open subscriptions -/

theorem targetFor_congr (h : c'.job n = c.job n) : c'.targetFor n = c.targetFor n := by
  unfold targetFor
  rw [h]

theorem Feeding.get?_eq_none (h : Feeding c) (hc : Correlated c) (hg : Registered c.journal n id) :
    c.routes.get? id = none := by
  cases hr : c.routes.get? id with
  | none => rfl
  | some target =>
    obtain ⟨m, -, hs⟩ := (h.routes id target).1 hr
    obtain rfl := hc.sameCall hs.mem hg.mem
    obtain ⟨reply, hx⟩ := hs.resolved
    obtain ⟨-, -, -, -, -, hn⟩ := hc.of_registered hg
    exact absurd hx (hn reply)

/-- **The invariant is preserved by every move.** -/
theorem Feeding.move (hm : c.Move c') (hc : Correlated c) (h : Feeding c) : Feeding c' := by
  refine ⟨fun id target => ?_⟩
  have ht : ∀ n, c'.targetFor n = c.targetFor n := fun n => targetFor_congr (hm.job_eq n)
  simp only [ht]
  have hx := h.routes id target
  cases hc.feeds hm with
  | aside hj hl hr =>
    rw [hr, hj, hx]
    simp only [subscribed_append hl]
  | @shut l i id' hj hl hi hr =>
    have hs : i.Shuts id ↔ id = id' := by
      rcases hi with rfl | rfl <;> exact eq_comm
    have hn : ∀ f, i ≠ .routed f := by
      rcases hi with rfl | rfl <;> nofun
    rw [hr, hj, Routes.get?_unsubscribe]
    simp only [subscribed_concat_of_ne hn, subscribed_append hl, hs]
    by_cases hid : id = id'
    · simp [hid]
    · simp [hid, hx]
  | cleared hj hl hr =>
    have hn : ∀ n, ¬ Subscribed c'.journal n id := fun n hs => by
      rw [hj] at hs
      exact not_subscribed_closing hs
    rw [hr, Routes.get?_empty]
    exact ⟨nofun, fun ⟨n, _, hs⟩ => absurd hs (hn n)⟩
  | passed hj hp ha hr ho =>
    rw [hr, hj, hx]
    refine exists_congr fun n => and_congr_right fun htn => ?_
    rw [subscribed_concat]
    refine ⟨fun hs => .inr ⟨hs, fun hx => hx⟩, fun hs => ?_⟩
    rcases hs with ⟨g, hf, hg, hk⟩ | ⟨hs, -⟩
    · obtain rfl := Incident.routed.inj hf
      rw [ha n _ hg hk] at htn
      cases htn
    · exact hs
  | @pushed f note t hf ht' hj hr ho =>
    rw [hr, hj, hx]
    refine exists_congr fun n => and_congr_right fun htn => ?_
    have hn : ∀ g, .notified t.call note.event ≠ Incident.routed g := nofun
    rw [subscribed_concat_of_ne hn, subscribed_concat]
    refine ⟨fun hs => ⟨.inr ⟨hs, fun hx => hx⟩, fun hx => hx⟩, fun ⟨hs, _⟩ => ?_⟩
    rcases hs with ⟨g, hg, -, hk⟩ | ⟨hs, -⟩
    · obtain rfl := Incident.routed.inj hg
      rw [hk.push?_eq_none] at hf
      cases hf
    · exact hs
  | @opened f n id' t hj hg hf ht' hr ho =>
    obtain ⟨⟨reply, hf'⟩, he⟩ := hf
    rw [hr, hj, Routes.get?_subscribe, h.get?_eq_none hc hg]
    simp only [subscribed_concat]
    by_cases hid : id = id'
    · subst hid
      rw [if_pos rfl]
      constructor
      · rintro ⟨⟩
        exact ⟨n, ht', .inl ⟨f, rfl, hg, ⟨reply, hf'⟩, he⟩⟩
      · rintro ⟨m, htm, ⟨g, -, hgm, -⟩ | ⟨hs, -⟩⟩
        · obtain rfl := hc.sameCall hgm.mem hg.mem
          exact ht'.symm.trans htm
        · have hy := hx.2 ⟨m, htm, hs⟩
          rw [h.get?_eq_none hc hg] at hy
          cases hy
    · rw [if_neg hid, hx]
      refine exists_congr fun m => and_congr_right fun _ => ?_
      refine ⟨fun hs => .inr ⟨hs, fun hx => hx⟩, fun hs => ?_⟩
      rcases hs with ⟨g, hg', -, ⟨reply', hk⟩, -⟩ | ⟨hs, -⟩
      · obtain rfl := Incident.routed.inj hg'
        rw [hf'] at hk
        cases hk
        exact absurd rfl hid
      · exact hs

theorem Feeding.addCall (h : Feeding c) (hc : Correlated c) (job : Job) :
    Feeding (c.addCall job) := by
  refine ⟨fun id target => (h.routes id target).trans ?_⟩
  refine exists_congr fun n => and_congr_left fun hs => ?_
  have hn : c.calls[n]? ≠ none := fun hn => by
    have ht := hc.tells n
    rw [phase_eq_idle hn] at ht
    exact ht _ hs.mem rfl
  rw [targetFor_congr ((Aside.addCall c job).job n hn)]

theorem Feeding.initial (config : Config) : Feeding (Client.initial config) :=
  ⟨fun _ _ => ⟨nofun, fun ⟨_, _, hs⟩ => absurd hs not_subscribed_nil⟩⟩

theorem Possible.feeding {config : Config} (h : Possible config c) : Feeding c :=
  (h.induct (P := fun c => Correlated c ∧ Feeding c)
    (fun hm hx => ⟨Correlated.move hm hx.1, Feeding.move hm hx.1 hx.2⟩)
    (fun job hx => ⟨(Aside.addCall _ job).correlated hx.1, hx.2.addCall hx.1 job⟩)
    ⟨Correlated.initial config, Feeding.initial config⟩).2

end Client

end DocWire
