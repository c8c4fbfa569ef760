import DocWire.Proofs.Client.Correlation
import DocWire.Proofs.Client.Guarded

/-! # The messages that calls set out to send

A call sets out to send when it has the write path: it sends one message, the request of its
operation or the end of its subscription. So the messages stand in the journal in the order in which
the write path was taken (`InTurn`). What a move adds to the journal is said by `Adds`, as far as it
is about sending. -/

namespace DocWire

open DocWire.Correlator (Waiter)
open DocWire.WritePath (passes_acquire passes_leave passes_release passes_withdraw holder_dropHalf
  takers_dropHalf)

namespace Incident

/-- The message that a call sets out to send, with the call. -/
def sending? : Incident → Option (Nat × ClientMessage)
  | .sending n m => some (n, m)
  | _ => none

/-- Whether an incident is about how a call sends. -/
def OfSending : Incident → Prop
  | .sending _ _ | .sent _ _ | .unsent _ _ => True
  | _ => False

/-- Whether an incident is about what comes in: a frame, what becomes of it, or a waiter that leaves
with or without it. -/
def OfReception : Incident → Prop
  | .routed _ | .notified _ _ | .answered _ _ | .left _ | .rejected _ => True
  | _ => False

theorem sending?_eq_none {i : Incident} (h : ¬ i.OfSending) : i.sending? = none := by
  cases i <;> first | rfl | exact absurd trivial h

theorem OfReception.not_ofSending {i : Incident} (h : i.OfReception) : ¬ i.OfSending := by
  cases i <;> first | exact id | exact h.elim

end Incident

/-- The messages that calls have set out to send, in order. -/
def sendings (j : List Incident) : List (Nat × ClientMessage) := j.filterMap Incident.sending?

/-- The calls that have set out to send, in order. -/
def senders (j : List Incident) : List Task := (sendings j).map fun p => .call p.1

variable {j l : List Incident} {n : Nat} {m : ClientMessage}

theorem sendings_append (j l : List Incident) : sendings (j ++ l) = sendings j ++ sendings l :=
  List.filterMap_append

theorem senders_append (j l : List Incident) : senders (j ++ l) = senders j ++ senders l := by
  unfold senders
  rw [sendings_append, List.map_append]

theorem sendings_eq_nil (h : ∀ i ∈ l, ¬ i.OfSending) : sendings l = [] :=
  List.filterMap_eq_nil_iff.2 fun i hi => Incident.sending?_eq_none (h i hi)

theorem mem_sendings : (n, m) ∈ sendings j ↔ .sending n m ∈ j := by
  unfold sendings
  rw [List.mem_filterMap]
  constructor
  · rintro ⟨i, hi, hs⟩
    cases i with
    | sending n' m' => cases hs; exact hi
    | _ => cases hs
  · exact fun h => ⟨_, h, rfl⟩

namespace Client

/-- A message is what a call has to say: the request of its operation, under the id that it has been
given, or the end of its subscription. -/
inductive Builds (c : Client) (n : Nat) : ClientMessage → Prop
  | request {op : Operation} {id : String} (hj : c.job n = .operation op)
      (hg : .registered n id ∈ c.journal) : Builds c n (op.message id)
  | farewell {id : String} (hj : c.job n = .unsubscribe (some id)) :
      Builds c n (.unsubscribe id)

/-- What a move may add to the journal, as far as it is about sending. -/
inductive Adds (c : Client) : List Incident → Prop
  | aside {l : List Incident} (hl : ∀ i ∈ l, ¬ i.OfSending) : Adds c l
  | begun {n : Nat} {m : ClientMessage} {waiter : Option Waiter} {c₁ : Client}
      {l : List Incident} (he : c.Enters n m waiter c₁) (hw : c.write.half = .held)
      (hj : c₁.journal = c.journal ++ l) : Adds c l
  | failed {n : Nat} {m : ClientMessage} {waiter : Option Waiter} {c₁ : Client} {e : Failure}
      {l l' : List Incident} (he : c.Enters n m waiter c₁) (hj : c₁.journal = c.journal ++ l)
      (hl : ∀ i ∈ l', ¬ i.OfSending) : Adds c (l ++ .unsent n e :: l')
  | sent {n : Nat} {s : Sending} (hs : c.stage n = .send s) : Adds c [.sent n c.now]
  | unsent {n : Nat} {s : Sending} {e : Failure} {l : List Incident} (hs : c.stage n = .send s)
      (hl : ∀ i ∈ l, ¬ i.OfSending) : Adds c (.unsent n e :: l)

variable {c c' c₁ : Client} {waiter : Option Waiter} {t : Task}

theorem Adds.nothing (c : Client) : c.Adds [] := .aside nofun

/-! ### The write path and the journal -/

theorem write_eq (h : c.core = c'.core) : c.write = c'.write := by
  have hc := congrArg write h
  exact hc

theorem journal_eq (h : c.core = c'.core) : c.journal = c'.journal := by
  have hc := congrArg journal h
  exact hc

theorem write_forgetAny (c : Client) (waiter : Option Waiter) :
    (c.forgetAny waiter).write = c.write := by
  cases waiter <;> rfl

theorem write_conclude (c : Client) (n : Nat) (w : Waiter) (r : Except Failure Reply) :
    (c.conclude n w r).write = c.write := by
  cases r with
  | error e => rfl
  | ok reply =>
    have ha : ((c.forget w).record (.answered n reply)).write = c.write := rfl
    unfold conclude
    dsimp only
    change (if turnsDown (c.job n) w.id reply = true then _ else _ : Client).write = c.write
    split
    · exact ha
    · exact ha

theorem write_routed (c : Client) (f : Frame) : (c.routed f).write = c.write := by
  unfold routed
  split
  · split <;> rfl
  · unfold dispatch
    split <;> rfl
  · rfl

theorem journal_forgetAny (c : Client) (waiter : Option Waiter) :
    ∃ l, (c.forgetAny waiter).journal = c.journal ++ l ∧ ∀ i ∈ l, ∃ id, i = .left id := by
  cases waiter with
  | none => exact ⟨[], (List.append_nil _).symm, nofun⟩
  | some w => exact ⟨[.left w.id], rfl, by simp⟩

theorem journal_conclude (c : Client) (n : Nat) (w : Waiter) (r : Except Failure Reply) :
    ∃ l, (c.conclude n w r).journal = c.journal ++ l ∧ ∀ i ∈ l, i.OfReception := by
  cases r with
  | error e => exact ⟨[.left w.id], rfl, by simp [Incident.OfReception]⟩
  | ok reply =>
    unfold Client.conclude
    dsimp only
    split
    · exact ⟨[.left w.id, .answered n reply, .rejected w.id], by simp [reject],
        by simp [Incident.OfReception]⟩
    · exact ⟨[.left w.id, .answered n reply], by simp, by simp [Incident.OfReception]⟩

theorem journal_route (c : Client) (f : Frame) :
    ∃ l, (c.route f).journal = c.journal ++ l ∧ ∀ i ∈ l, i.OfReception := by
  rw [journal_eq (core_route c f)]
  unfold routed
  split
  · refine ⟨[.routed f], ?_, by simp [Incident.OfReception]⟩
    split <;> rfl
  next note _ _ =>
    unfold dispatch
    split
    next target _ =>
      exact ⟨[.routed f, .notified target.call note.event], List.append_assoc _ _ _,
        by simp [Incident.OfReception]⟩
    · exact ⟨[.routed f], rfl, by simp [Incident.OfReception]⟩
  · exact ⟨[.routed f], rfl, by simp [Incident.OfReception]⟩

/-! ### What a move does to the calls, the lock and the journal -/

/-- A move changes the stage of one call, or of none. -/
theorem Move.calls_eq (hm : c.Move c') :
    c'.calls = c.calls ∨ ∃ n s, c'.calls = (c.setStage n s).calls := by
  cases hm with
  | quiet h => exact .inl (Client.calls_eq h).symm
  | tick | unroute | lineUpToClose | findGone | shut | endReader | keepReading | letGo =>
    exact .inl rfl
  | @begin c₁ n m waiter bytes he hf hw =>
    refine .inr ⟨n, .send ⟨bytes, bytes.length, waiter, c.requestDue⟩, ?_⟩
    exact congrArg (List.modify · n _) he.calls_eq
  | @fail c₁ _ n waiter e hs he hf =>
    have hc : ((c₁.record (.unsent n e)).yield.forgetAny waiter).calls = c.calls :=
      (calls_forgetAny _ waiter).trans hs.calls_eq
    cases hf with
    | ends _ => exact .inr ⟨n, _, congrArg (List.modify · n _) hc⟩
    | closes _ => exact .inr ⟨n, _, congrArg (List.modify · n _) hc⟩
  | @conclude n due w r hs hr =>
    obtain ⟨r', hq⟩ := outline_conclude c n w r
    exact .inr ⟨n, .done r', calls_of_outline hq⟩
  | @dropSend n s hs =>
    refine .inr ⟨n, .dropped, ?_⟩
    exact congrArg (List.modify · n _) (calls_forgetAny c s.waiter)
  | @close t k hm hl =>
    cases t with
    | reader => exact .inl rfl
    | call n => exact .inr ⟨n, .closeLock k, rfl⟩
  | @takeHalf t k hs hh hw =>
    cases t with
    | reader => exact .inl rfl
    | call n => exact .inr ⟨n, .closeShutdown k, rfl⟩
  | route hr ha f =>
    left
    rw [Client.calls_eq (core_route c f), calls_of_outline (outline_routed _ f)]
    rfl
  | _ => exact .inr ⟨_, _, rfl⟩

theorem Move.job_eq (hm : c.Move c') (n : Nat) : c'.job n = c.job n := by
  rcases hm.calls_eq with h | ⟨m, s, h⟩
  · exact job_congr h n
  · exact (job_congr h n).trans (job_setStage c m n s)

theorem Move.passes (hm : c.Move c') : c.write.Passes c'.write := by
  cases hm with
  | quiet h => rw [write_eq h]; exact .stays rfl rfl
  | lineUp | lineUpToClose => exact passes_acquire _ _
  | turnAway => exact (passes_leave { c.write with nextId := c.write.nextId + 1 }).congr rfl rfl
  | pass | sent => exact passes_leave _
  | begin he hf hw => cases he <;> exact .stays rfl rfl
  | @fail c₁ _ n waiter e hs he hf =>
    have hp : c.write.Passes ((c₁.record (.unsent n e)).yield.forgetAny waiter).write := by
      rw [write_forgetAny]
      cases hs with
      | atOnce he => cases he <;> exact (passes_leave _).congr rfl rfl
      | later hs => exact passes_leave _
    cases hf <;> exact hp
  | @dropSend n s hs =>
    change c.write.Passes (c.forgetAny s.waiter).write.leave
    rw [write_forgetAny]
    exact passes_leave _
  | @conclude n due w r hs hr =>
    rw [write_conclude]
    exact .stays rfl rfl
  | dropLine => exact passes_withdraw _ _
  | @close t k hm hl => cases t <;> exact .stays rfl rfl
  | @takeHalf t k hs hh hw =>
    have hp : c.write.Passes ({ c.write with half := .leaving } : WritePath).release :=
      (passes_release _).congr rfl rfl
    cases t <;> exact hp
  | findGone => exact passes_release _
  | endReader | letGo =>
    split
    · exact .stays rfl rfl
    · exact .stays (holder_dropHalf _) (takers_dropHalf _)
  | route hr ha f =>
    rw [write_eq (core_route c f), write_routed]
    exact .stays rfl rfl
  | _ => exact .stays rfl rfl

theorem Enters.journal_eq (h : c.Enters n m waiter c₁) :
    ∃ l, c₁.journal = c.journal ++ l ∧ sendings l = [(n, m)] ∧ ∀ t, .sent n t ∉ l := by
  cases h with
  | request hs hh hj hr => exact ⟨_, List.append_assoc _ _ _, rfl, by simp⟩
  | farewell hs hh hj => exact ⟨_, rfl, rfl, by simp⟩

theorem Fails.journal_eq {e : Failure}
    (hf : c.Fails n e ((c₁.record (.unsent n e)).yield.forgetAny waiter) c') :
    ∃ l, c'.journal = c₁.journal ++ .unsent n e :: l ∧ ∀ i ∈ l, ¬ i.OfSending := by
  obtain ⟨l, hj, hl⟩ := journal_forgetAny (c₁.record (.unsent n e)).yield waiter
  have hj' : ((c₁.record (.unsent n e)).yield.forgetAny waiter).journal =
      c₁.journal ++ .unsent n e :: l := by
    rw [hj]
    simp
  have hn : ∀ i ∈ l, ¬ i.OfSending := fun i hi => by
    obtain ⟨id', rfl⟩ := hl i hi
    exact id
  cases hf with
  | ends _ => exact ⟨l, hj', hn⟩
  | closes _ =>
    refine ⟨l ++ [.closing], ?_, fun i hi => ?_⟩
    · change _ ++ [Incident.closing] = _
      rw [journal_setStage, hj', List.append_assoc]
      rfl
    · rcases List.mem_append.1 hi with hi | hi
      · exact hn i hi
      · rw [List.mem_singleton.1 hi]
        exact id

theorem Move.adds (hm : c.Move c') : ∃ l, c'.journal = c.journal ++ l ∧ c.Adds l := by
  cases hm with
  | quiet h => exact ⟨[], by rw [journal_eq h, List.append_nil], .nothing c⟩
  | begin he hf hw =>
    obtain ⟨l, hj, -⟩ := he.journal_eq
    exact ⟨l, hj, .begun he hw hj⟩
  | @fail c₁ c' n waiter e hs he hf =>
    obtain ⟨l', hj', hl'⟩ := hf.journal_eq
    cases hs with
    | atOnce he =>
      obtain ⟨l, hj, -⟩ := he.journal_eq
      exact ⟨l ++ .unsent n e :: l', by simp [hj', hj], .failed he hj hl'⟩
    | later hs => exact ⟨.unsent n e :: l', hj', .unsent hs hl'⟩
  | sent hs hr => exact ⟨_, rfl, .sent hs⟩
  | @conclude n due w r hs hr =>
    obtain ⟨l, hj, hl⟩ := journal_conclude c n w r
    exact ⟨l, hj, .aside fun i hi => (hl i hi).not_ofSending⟩
  | @dropSend n s hs =>
    obtain ⟨l, hj, hl⟩ := journal_forgetAny c s.waiter
    refine ⟨l, hj, .aside fun i hi => ?_⟩
    obtain ⟨id', rfl⟩ := hl i hi
    exact id
  | dropWait hs => exact ⟨_, rfl, .aside (by simp [Incident.OfSending])⟩
  | unroute hs hj ha => exact ⟨_, rfl, .aside (by simp [Incident.OfSending])⟩
  | @close t k hm hl =>
    refine ⟨[.closing], ?_, .aside (by simp [Incident.OfSending])⟩
    cases t <;> rfl
  | route hr ha f =>
    obtain ⟨l, hj, hl⟩ := journal_route c f
    exact ⟨l, hj, .aside fun i hi => (hl i hi).not_ofSending⟩
  | @takeHalf t k hs hh hw =>
    refine ⟨[], ?_, .nothing c⟩
    cases t <;> exact (List.append_nil _).symm
  | _ => exact ⟨[], (List.append_nil _).symm, .nothing c⟩

/-! ### The order of the messages -/

theorem Builds.mono (h : c.Builds n m) (hj : c'.job n = c.job n)
    (hm : ∀ i ∈ c.journal, i ∈ c'.journal) : c'.Builds n m := by
  cases h with
  | request hop hg => exact .request (hj.trans hop) (hm _ hg)
  | farewell hop => exact .farewell (hj.trans hop)

/-- A call that sets out to send has the write path, has sent nothing before, and has built its
message. -/
theorem Enters.facts (he : c.Enters n m waiter c₁) (h : Correlated c) :
    c.write.holder = some (.call n) ∧ (∀ m, .sending n m ∉ c.journal) ∧ c₁.Builds n m := by
  have hn : c.Tells n .idle := by
    have ht := h.tells n
    rwa [phase_of_stage he.stage_eq_lock nofun] at ht
  refine ⟨?_, fun m hm => hn _ hm rfl, ?_⟩
  · cases he with
    | request hs hh hj hr => exact (holds_iff c _).1 hh
    | farewell hs hh hj => exact (holds_iff c _).1 hh
  · cases he with
    | request hs hh hj hr => exact .request hj (by simp)
    | farewell hs hh hj => exact .farewell hj

theorem Enters.passes (he : c.Enters n m waiter c₁) (h : c.write.Passes c'.write) :
    c₁.write.Passes c'.write := by
  cases he <;> exact h.congr rfl rfl

theorem Enters.job_eq (he : c.Enters n m waiter c₁) (h : ∀ n, c'.job n = c.job n) (i : Nat) :
    c'.job i = c₁.job i :=
  (h i).trans (job_congr he.calls_eq i).symm

/-- **The messages stand in the journal in the order in which the write path was taken.** Whoever
has the write path has taken it last, and has already set out to send or is still to do so. -/
structure InTurn (c : Client) : Prop where
  order : (senders c.journal).Sublist c.write.takers
  last : ∀ {t}, c.write.holder = some t → ∃ before, c.write.takers = before ++ [t] ∧
    ((∃ n m, t = .call n ∧ .sending n m ∈ c.journal) ∨ (senders c.journal).Sublist before)
  builds : ∀ {n m}, .sending n m ∈ c.journal → c.Builds n m

/-- The lock may change hands while nobody sets out to send. -/
theorem InTurn.pass (h : InTurn c) (hp : c.write.Passes c'.write) (hl : c'.journal = c.journal ++ l)
    (hs : sendings l = []) (hj : ∀ n, c'.job n = c.job n) : InTurn c' := by
  have hm : ∀ {i}, i ∈ c.journal → i ∈ c'.journal := fun hi => hl ▸ List.mem_append_left _ hi
  have he : senders c'.journal = senders c.journal := by
    rw [hl, senders_append, senders, senders, hs, List.map_nil, List.append_nil]
  have hb : ∀ {n m}, .sending n m ∈ c'.journal → c'.Builds n m := by
    intro n m hi
    rw [← mem_sendings, hl, sendings_append, hs, List.append_nil, mem_sendings] at hi
    exact (h.builds hi).mono (hj n) fun _ => hm
  cases hp with
  | stays hh ht =>
    refine ⟨by rw [he, ht]; exact h.order, fun {t} hx => ?_, hb⟩
    obtain ⟨before, hbe, hor⟩ := h.last (hh ▸ hx)
    refine ⟨before, ht.trans hbe, hor.imp ?_ fun hx => he ▸ hx⟩
    rintro ⟨n, m, rfl, hi⟩
    exact ⟨n, m, rfl, hm hi⟩
  | freed hh ht =>
    refine ⟨by rw [he, ht]; exact h.order, fun {t} hx => ?_, hb⟩
    rw [hh] at hx
    cases hx
  | given t hh ht =>
    refine ⟨?_, fun {t'} hx => ⟨c.write.takers, ?_, .inr (he ▸ h.order)⟩, hb⟩
    · rw [he, ht]
      exact h.order.trans (List.sublist_append_left _ _)
    · rw [hh] at hx
      cases hx
      exact ht

theorem InTurn.enter (h : InTurn c) (hc : Correlated c) (he : c.Enters n m waiter c₁) :
    InTurn c₁ := by
  obtain ⟨hh, hn, hb⟩ := he.facts hc
  obtain ⟨l, hl, hs, -⟩ := he.journal_eq
  have hw : c₁.write.holder = c.write.holder ∧ c₁.write.takers = c.write.takers := by
    cases he <;> exact ⟨rfl, rfl⟩
  have hm : ∀ {i}, i ∈ c.journal → i ∈ c₁.journal := fun hi => hl ▸ List.mem_append_left _ hi
  have hx : senders c₁.journal = senders c.journal ++ [.call n] := by
    rw [hl, senders_append, senders, senders, hs]
    rfl
  have hi : .sending n m ∈ c₁.journal := by
    rw [← mem_sendings, hl, sendings_append, hs]
    simp
  obtain ⟨before, hbe, hor⟩ := h.last hh
  have hbefore : (senders c.journal).Sublist before := by
    refine hor.resolve_left ?_
    rintro ⟨n', m', hn', hm'⟩
    cases hn'
    exact hn m' hm'
  refine ⟨?_, fun {t} ht => ⟨before, hw.2.trans ?_, .inl ⟨n, m, ?_, hi⟩⟩, fun {n' m'} hi' => ?_⟩
  · rw [hx, hw.2, hbe]
    exact hbefore.append_right _
  · rw [hw.1, hh] at ht
    cases ht
    exact hbe
  · rw [hw.1, hh] at ht
    cases ht
    rfl
  · rw [← mem_sendings, hl, sendings_append, hs, List.mem_append, List.mem_singleton] at hi'
    rcases hi' with hi' | hi'
    · exact (h.builds (mem_sendings.1 hi')).mono (job_congr he.calls_eq n') fun _ => hm
    · cases hi'
      exact hb

theorem InTurn.move (hm : c.Move c') (hc : Correlated c) (h : InTurn c) : InTurn c' := by
  obtain ⟨l, hl, ha⟩ := hm.adds
  have hp := hm.passes
  have hj := hm.job_eq
  cases ha with
  | aside hs => exact h.pass hp hl (sendings_eq_nil hs) hj
  | sent hs => exact h.pass hp hl rfl hj
  | unsent hs hs' =>
    have hx := sendings_eq_nil hs'
    exact h.pass hp hl hx hj
  | @begun n m waiter c₁ l he hw hl' =>
    refine (h.enter hc he).pass (he.passes hp) (l := []) ?_ rfl (he.job_eq hj)
    rw [hl, hl', List.append_nil]
  | @failed n m waiter c₁ e l l' he hl' hs =>
    have hx := sendings_eq_nil hs
    refine (h.enter hc he).pass (he.passes hp) (l := .unsent n e :: l') ?_ hx (he.job_eq hj)
    rw [hl, hl', List.append_assoc]

theorem InTurn.addCall (h : InTurn c) (job : Job) : InTurn (c.addCall job) := by
  refine ⟨h.order, h.last, fun {n m} hi => ?_⟩
  have hb := h.builds hi
  refine hb.mono ?_ fun _ => id
  by_cases hn : n < c.calls.length
  · unfold Client.job Client.addCall
    rw [List.getElem?_append_left hn]
  · have hd : c.job n = .disconnect := by
      unfold Client.job
      rw [List.getElem?_eq_none (Nat.le_of_not_lt hn)]
      rfl
    cases hb with
    | request hj hg => rw [hd] at hj; cases hj
    | farewell hj => rw [hd] at hj; cases hj

theorem InTurn.initial (config : Config) : InTurn (Client.initial config) :=
  ⟨List.Sublist.slnil, nofun, nofun⟩

end Client

end DocWire
