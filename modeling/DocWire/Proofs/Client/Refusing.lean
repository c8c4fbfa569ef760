import DocWire.Proofs.Client.Alertness
import DocWire.Proofs.Client.Alike
import DocWire.Proofs.Client.Faults
import DocWire.Proofs.Client.Limits
import DocWire.Proofs.Client.Outstanding
import DocWire.Proofs.Client.Settling

/-! # Calls that are refused

An operation can be turned down for its arguments before it does anything (`Operation.Faulty`), and
then there is nothing else to the call (`Orderly.start_refused`). Or its request turns out to be too
large when it has taken an id and been registered. Then the registration is taken back in the same
turn (`Entering.request_eq`), and but for the id the client goes on as if there had been none
(`Entering.alike`). -/

namespace DocWire

open DocWire.Correlator (Waiter)

namespace Operation

/-- The texts of an operation that must not be empty, in the order in which they are looked at. -/
def texts : Operation → List (Argument × String)
  | query text _ | subscribe text _ => [(.query, text)]
  | insert collection _ => [(.collection, collection)]
  | update collection documentId _ | delete collection documentId =>
    [(.collection, collection), (.documentId, documentId)]
  | ping | listCollections => []

/-- The body of an operation that takes one; one that cannot be written as free-form data is
missing. -/
def body? : Operation → Option (Option Value)
  | insert _ body | update _ _ body => some body
  | _ => none

/-- What can be wrong with the arguments of an operation: the first text that is empty, or else its
body. -/
inductive Faulty (op : Operation) : Failure → Prop
  | missing {before after : List (Argument × String)} {argument : Argument}
      (ht : op.texts = before ++ (argument, "") :: after) (hb : ∀ p ∈ before, p.2 ≠ "") :
      Faulty op (.invalidArgument (.missing argument))
  | notObject {v : Value} (ht : ∀ p ∈ op.texts, p.2 ≠ "") (hb : op.body? = some (some v))
      (hv : v.isObject = false) : Faulty op (.invalidArgument .bodyNotObject)
  | unwritable (ht : ∀ p ∈ op.texts, p.2 ≠ "") (hb : op.body? = some none) :
      Faulty op (.encodeFailed .unserializable)

variable {op : Operation} {e : Failure}

theorem refusal?_eq (op : Operation) : op.refusal? =
    (op.texts.findSome? fun p => missing? p.1 p.2).or (op.body?.bind bodyFault?) := by
  cases op with
  | update collection documentId body =>
    unfold refusal? texts body?
    simp only [List.findSome?_cons, List.findSome?_nil, Option.bind_some]
    cases missing? .collection collection <;> cases missing? .documentId documentId <;> rfl
  | delete collection documentId =>
    unfold refusal? texts body?
    simp only [List.findSome?_cons, List.findSome?_nil, Option.bind_none, Option.or_none]
    cases missing? .collection collection <;> cases missing? .documentId documentId <;> rfl
  | insert collection body =>
    unfold refusal? texts body?
    simp only [List.findSome?_cons, List.findSome?_nil, Option.bind_some]
    cases missing? .collection collection <;> rfl
  | query text convert? =>
    unfold refusal? texts body?
    simp only [List.findSome?_cons, List.findSome?_nil, Option.bind_none, Option.or_none]
    cases missing? .query text <;> rfl
  | subscribe text fails =>
    unfold refusal? texts body?
    simp only [List.findSome?_cons, List.findSome?_nil, Option.bind_none, Option.or_none]
    cases missing? .query text <;> rfl
  | ping => rfl
  | listCollections => rfl

theorem missing?_eq_some {argument : Argument} {s : String} :
    missing? argument s = some e ↔ s = "" ∧ e = .invalidArgument (.missing argument) := by
  unfold missing?
  by_cases hs : s = ""
  · subst hs
    exact ⟨fun h => ⟨rfl, (Option.some.inj h).symm⟩, fun h => h.2 ▸ rfl⟩
  · simp [hs]

theorem missing?_eq_none {argument : Argument} {s : String} :
    missing? argument s = none ↔ s ≠ "" := by
  unfold missing?
  simp

/-- **An operation is turned down for what is wrong with its arguments**, and for nothing else. -/
theorem refusal?_eq_some_iff : op.refusal? = some e ↔ op.Faulty e := by
  rw [refusal?_eq, Option.or_eq_some_iff]
  refine ⟨fun h => ?_, fun h => ?_⟩
  · rcases h with h | ⟨h, hb⟩
    · obtain ⟨before, p, after, ht, hp, hbefore⟩ := List.findSome?_eq_some_iff.1 h
      obtain ⟨argument, s⟩ := p
      obtain ⟨rfl, rfl⟩ := missing?_eq_some.1 hp
      exact .missing ht fun q hq => missing?_eq_none.1 (hbefore q hq)
    · have ht : ∀ p ∈ op.texts, p.2 ≠ "" := fun p hp =>
        missing?_eq_none.1 (List.findSome?_eq_none_iff.1 h p hp)
      obtain ⟨body, hx, hf⟩ := Option.bind_eq_some_iff.1 hb
      cases body with
      | none =>
        cases hf
        exact .unwritable ht hx
      | some v =>
        unfold bodyFault? at hf
        dsimp only at hf
        split at hf
        · cases hf
        next hv =>
          cases hf
          exact .notObject ht hx (by simpa using hv)
  · cases h with
    | @missing before after argument ht hb =>
      refine .inl (List.findSome?_eq_some_iff.2 ⟨before, (argument, ""), after, ht,
        missing?_eq_some.2 ⟨rfl, rfl⟩, fun q hq => missing?_eq_none.2 (hb q hq)⟩)
    | notObject ht hb hv =>
      refine .inr ⟨List.findSome?_eq_none_iff.2 fun p hp => missing?_eq_none.2 (ht p hp), ?_⟩
      rw [hb, Option.bind_some, bodyFault?, hv]
      rfl
    | unwritable ht hb =>
      refine .inr ⟨List.findSome?_eq_none_iff.2 fun p hp => missing?_eq_none.2 (ht p hp), ?_⟩
      rw [hb, Option.bind_some, bodyFault?]

theorem refusal?_eq_none_iff : op.refusal? = none ↔ ∀ e, ¬ op.Faulty e := by
  simp only [Option.eq_none_iff_forall_ne_some, ne_eq, refusal?_eq_some_iff]

/-- Something is wrong with the arguments if a text is empty, or the body is no object. -/
theorem exists_faulty_iff : (∃ e, op.Faulty e) ↔ (∃ p ∈ op.texts, p.2 = "") ∨
    op.body? = some none ∨ ∃ v, op.body? = some (some v) ∧ v.isObject = false := by
  refine ⟨fun ⟨e, h⟩ => ?_, fun h => ?_⟩
  · cases h with
    | @missing before after argument ht hb =>
      exact .inl ⟨(argument, ""), ht ▸ List.mem_append_right _ List.mem_cons_self, rfl⟩
    | notObject ht hb hv => exact .inr (.inr ⟨_, hb, hv⟩)
    | unwritable ht hb => exact .inr (.inl hb)
  · by_contra hn
    have hx := refusal?_eq_none_iff.2 fun e he => hn ⟨e, he⟩
    rw [refusal?_eq, Option.or_eq_none_iff] at hx
    have ht : ∀ p ∈ op.texts, p.2 ≠ "" := fun p hp =>
      missing?_eq_none.1 (List.findSome?_eq_none_iff.1 hx.1 p hp)
    rcases h with ⟨p, hp, he⟩ | hb | ⟨v, hb, hv⟩
    · exact ht p hp he
    · exact hn ⟨_, .unwritable ht hb⟩
    · exact hn ⟨_, .notObject ht hb hv⟩

end Operation

namespace Correlator

variable {κ : Type} {k k' : Correlator κ} {id : String} {sub : Option κ} {w : Waiter}

/-- A registration that is left at once leaves nothing behind but its mailbox. -/
theorem leave_register (h : k.register id sub = .ok (w, k')) :
    k'.leave w = { k with mailboxes := k.mailboxes ++ [.abandoned] } := by
  obtain ⟨-, hl, rfl, rfl⟩ := register_ok h
  have hr : Entries.without id (k.slots ++ [(id, ⟨k.mailboxes.length, sub⟩)]) = k.slots := by
    unfold Entries.without
    rw [List.filter_append, Entries.filter_of_lookup_eq_none hl]
    simp
  have hm : ∀ x y : Mailbox, (k.mailboxes ++ [x]).set k.mailboxes.length y =
      k.mailboxes ++ [y] := fun x y => by
    rw [List.set_append_right _ _ (Nat.le_refl _), Nat.sub_self]
    rfl
  have hv : (k.mailboxes ++ [Mailbox.vacant]).getD k.mailboxes.length .abandoned = .vacant := by
    rw [List.getD_eq_getElem?_getD, List.getElem?_concat_length]
    rfl
  unfold leave take remove dropSlot mailbox setMailbox
  dsimp only
  rw [List.lookup_append, hl, Option.none_or, List.lookup_cons, beq_self_eq_true, hr]
  dsimp only
  rw [hv]
  dsimp only
  rw [hm, hm]

theorem mailbox_concat_abandoned (k : Correlator κ) (t : Nat) :
    ({ k with mailboxes := k.mailboxes ++ [.abandoned] } : Correlator κ).mailbox t =
      k.mailbox t := by
  unfold mailbox
  dsimp only
  rw [List.getD_eq_getElem?_getD, List.getD_eq_getElem?_getD, List.getElem?_append]
  split
  · rfl
  next ht =>
    rw [List.getElem?_eq_none (Nat.le_of_not_lt ht)]
    cases t - k.mailboxes.length <;> rfl

end Correlator

namespace Client

variable {b c c' d : Client} {config : Config} {n m count : Nat} {op : Operation} {e : Failure}
  {waiter : Option Waiter} {t : Task}

/-! ### Arguments -/

/-- **A call that is turned down for its arguments ends, and that is all.** -/
theorem turn_refused (hs : c.stage n = .fresh) (hj : c.job n = .operation op)
    (hf : op.refusal? = some e) : c.turn (.call n) =
      ({ c with ready := c.ready.erase (.call n) } : Client).finish n (.error e) := by
  rw [turn_operation hs hj]
  unfold startOperation
  rw [hf]

theorem modify_concat {α : Type} (l : List α) (x : α) (f : α → α) :
    (l ++ [x]).modify l.length f = l ++ [f x] := by
  induction l with
  | nil => rfl
  | cons a l ih => simp [ih]

theorem Orderly.act_start (h : c.Orderly c.calls.length) (job : Job) : c.act (.start job) =
    { c with calls := c.calls ++ [⟨job, .fresh⟩], ready := c.ready ++ [.call c.calls.length] } := by
  unfold act Client.wake
  exact if_neg fun hm => Nat.lt_irrefl _ (h.ready _ hm)

theorem stage_concat (c : Client) (call : Call) (l : List Task) :
    ({ c with calls := c.calls ++ [call], ready := l } : Client).stage c.calls.length =
      call.stage := by
  unfold stage
  rw [List.getElem?_concat_length]
  rfl

theorem job_concat (c : Client) (call : Call) (l : List Task) :
    ({ c with calls := c.calls ++ [call], ready := l } : Client).job c.calls.length = call.job := by
  unfold job
  rw [List.getElem?_concat_length]
  rfl

theorem Orderly.start_refused (h : c.Orderly c.calls.length) (hf : op.refusal? = some e) :
    (c.act (.start (.operation op))).turn (.call c.calls.length) =
      { c with calls := c.calls ++ [⟨.operation op, .done (.error e)⟩] } := by
  have ht : c.timers.filter (fun t => t.call != c.calls.length) = c.timers :=
    List.filter_eq_self.2 fun t hm => by simpa using Nat.ne_of_lt (h.timers t hm)
  have hn : Task.call c.calls.length ∉ c.ready := fun hm => Nat.lt_irrefl _ (h.ready _ hm)
  rw [h.act_start, turn_refused (stage_concat c _ _) (job_concat c _ _) hf]
  unfold finish Client.clearTimer Client.setStage
  dsimp only
  rw [ht, modify_concat, List.erase_append_right _ hn, List.erase_cons_head, List.append_nil]

/-! ### The size of a frame -/

theorem leaveWritePath_set (c : Client) (k : Correlator Target) (timers : List Timer)
    (journal : List Incident) :
    ({ c with correlator := k, timers := timers, journal := journal } : Client).leaveWritePath =
      { c.leaveWritePath with correlator := k, timers := timers, journal := journal } := by
  have hw : ∀ (d : Client) (t : Task),
      ({ d with correlator := k, timers := timers, journal := journal } : Client).wake t =
        { d.wake t with correlator := k, timers := timers, journal := journal } := by
    intro d t
    unfold wake
    split <;> rfl
  unfold leaveWritePath
  dsimp only
  cases c.write.torn with
  | false =>
    cases c.write.queue with
    | nil => rfl
    | cons t l => exact hw c.vacate t
  | true =>
    have hr := hw c.vacate .reader
    cases c.write.queue with
    | nil => exact hr
    | cons t l => exact (congrArg (wake · t) hr).trans (hw (c.vacate.wake .reader) t)

/-- Nobody is woken if all whose mailboxes are decided are about to go on. -/
theorem wakeDecided_eq_self (h : ∀ n w due, c.stage n = .await w due →
    c.correlator.mailbox w.ticket ≠ .vacant → .call n ∈ c.ready) : c.wakeDecided = c := by
  have hw : ∀ n, (if c.isDecided (c.stage n) then c.wake (.call n) else c) = c := by
    intro n
    split
    next hd =>
      unfold wake
      refine if_pos ?_
      generalize hs : c.stage n = s at hd
      cases s with
      | await w due => exact h n w due hs (by simpa [isDecided] using hd)
      | _ => cases hd
    · rfl
  have hf : ∀ l : List Nat,
      l.foldl (fun d n => if c.isDecided (d.stage n) then d.wake (.call n) else d) c = c := by
    intro l
    induction l with
    | nil => rfl
    | cons n l ih => rw [List.foldl_cons, hw, ih]
  exact hf (List.range c.calls.length)

/-- A call that has the write path uses up an id, hands the write path on, and ends. -/
def skip (c : Client) (n : Nat) (e : Failure) : Client :=
  { c with
    calls := (c.setStage n (.done (.error e))).calls
    ready := (c.wakeFirst c.write.queue).ready
    timers := c.timers.filter fun t => t.call != n
    write := { c.write.release with nextId := c.write.nextId + 1 } }

/-- A call that has the write path is about to make a request. -/
structure Entering (c : Client) (n : Nat) (op : Operation) : Prop where
  lawful : Lawful c
  keyed : (c.correlator.slots.map (·.1)).Nodup
  alert : c.Alert c.calls.length none
  stage : c.stage n = .lock
  holds : c.holds (.call n) = true
  job : c.job n = .operation op
  opened : c.correlator.closed = false

namespace Entering

theorem exists_register (h : c.Entering n op) : ∃ k,
    c.correlator.register c.nextId (targetOf n op) =
      .ok (⟨c.nextId, c.correlator.mailboxes.length⟩, k) := by
  unfold Correlator.register
  rw [h.opened, h.lawful.not_pending_nextId]
  exact ⟨_, rfl⟩

theorem finish_eq (h : c.Entering n op) (e : Failure) :
    c.useId.leaveWritePath.finish n (.error e) = c.skip n e := by
  have ht : c.useId.write.torn = false := h.lawful.guarded.torn_of_lock h.stage h.holds
  have hr : ({ c.write with nextId := c.write.nextId + 1 } : WritePath).release =
      { c.write.release with nextId := c.write.nextId + 1 } := by
    unfold WritePath.release WritePath.give
    dsimp only
    split <;> rfl
  have hl : c.useId.write.leave = { c.write.release with nextId := c.write.nextId + 1 } := by
    rw [WritePath.leave, ht]
    exact hr
  have hw : ∀ l, ({ c with
      write := { c.write.release with nextId := c.write.nextId + 1 } } : Client).wakeFirst l =
      { c with
        ready := (c.wakeFirst l).ready
        write := { c.write.release with nextId := c.write.nextId + 1 } } := by
    intro l
    cases l with
    | nil => rfl
    | cons t l =>
      unfold wakeFirst wake
      dsimp only
      by_cases ht : t ∈ c.ready
      · rw [if_pos ht, if_pos ht]
      · rw [if_neg ht, if_neg ht]
  unfold leaveWritePath vacate
  rw [ht, hl, Bool.or_false]
  exact congrArg (finish · n (.error e)) (hw c.write.queue)

/-- **A request that is too large is taken back.** What is left of it is a number that is used up, a
mailbox that is abandoned, and what has been written down. -/
theorem request_eq (h : c.Entering n op)
    (hl : c.config.frameLimit.toNat < (c.parcel (op.message c.nextId)).length) :
    ∃ fault, c.request n op = { c.skip n (.invalidArgument fault) with
      correlator := { c.correlator with mailboxes := c.correlator.mailboxes ++ [.abandoned] }
      journal := c.journal ++ [.registered n c.nextId, .sending n (op.message c.nextId),
        .unsent n (.invalidArgument fault), .left c.nextId] } := by
  obtain ⟨k, hk⟩ := h.exists_register
  obtain ⟨fault, hf⟩ := frameOf?_eq_error hl
  refine ⟨fault, ?_⟩
  generalize hw : (⟨c.nextId, c.correlator.mailboxes.length⟩ : Waiter) = w at hk
  have hid : w.id = c.nextId := by rw [← hw]
  have hf' : (({ c.useId with correlator := k }.record (.registered n w.id)).record
      (.sending n (op.message w.id))).frameOf? (op.message w.id) =
      .error (.invalidArgument fault) := by
    rw [hid]
    exact hf
  obtain ⟨asked, l, hv⟩ := exists_leaveWritePath c.useId
  let k' : Correlator Target :=
    { c.correlator with mailboxes := c.correlator.mailboxes ++ [.abandoned] }
  let d : Client := { c.useId with
    write := c.useId.write.leave, stopAsked := asked, ready := l, correlator := k'
    timers := c.timers.filter fun t => t.call != n
    journal := c.journal ++ [.registered n c.nextId, .sending n (op.message c.nextId),
      .unsent n (.invalidArgument fault), .left c.nextId] }
  have hd : d.wakeDecided = d := by
    refine wakeDecided_eq_self fun i w' due hs hm => ?_
    have hu : c.useId.Alert c.calls.length none := h.alert.handOn fun _ ht => ht
    have ha : c.useId.leaveWritePath.Alert c.calls.length none := hu.leaveWritePath
    rw [hv] at ha
    exact ha.woken i w' due nofun hs (by rwa [← Correlator.mailbox_concat_abandoned])
  have hleft : ((((({ c.useId with correlator := k }.record (.registered n w.id)).record
      (.sending n (op.message w.id))).record (.unsent n (.invalidArgument fault))).clearTimer
        n).leaveWritePath).leave w = d := by
    have hs := leaveWritePath_set c.useId k (c.timers.filter fun t => t.call != n)
      (((c.journal ++ [.registered n w.id]) ++ [.sending n (op.message w.id)]) ++
        [.unsent n (.invalidArgument fault)])
    rw [hv] at hs
    refine (congrArg (leave · w) hs).trans (Eq.trans ?_ hd)
    refine congrArg wakeDecided ?_
    unfold forget
    dsimp only [d, k', record]
    rw [Correlator.leave_register hk, hid]
    simp only [List.append_assoc, List.cons_append, List.nil_append]
  have hj : d.job n = .operation op := h.job
  unfold request
  rw [hk]
  dsimp only
  unfold sendMessage
  dsimp only
  rw [hf']
  dsimp only
  unfold failSending leaveIfAny
  dsimp only
  rw [hleft, hj]
  change d.finish n (.error (.invalidArgument fault)) = _
  rw [← h.finish_eq, hv]
  unfold finish clearTimer
  dsimp only [d, useId]
  rw [List.filter_filter]
  simp only [Bool.and_self]
  rfl

/-- All mailboxes that anyone waits for have been made. -/
theorem moved_eq (h : c.Entering n op) {call : Call} (hc : call ∈ (c.skip n e).calls) :
    { call with stage := call.stage.moved c.correlator.mailboxes.length } = call := by
  obtain ⟨i, hi⟩ := List.getElem?_of_mem hc
  have hw : ∀ w, call.stage.phase.waiter? = some w → w.ticket < c.correlator.mailboxes.length := by
    intro w hw
    have hp : (c.skip n e).phase i = call.stage.phase := by rw [phase, hi]; rfl
    have hx : (c.skip n e).phase i = c.phase i ∨ (c.skip n e).phase i = .ended (.error e) := by
      rw [show (c.skip n e).phase i = (c.setStage n (.done (.error e))).phase i from rfl,
        phase_setStage]
      split
      · exact .inr rfl
      · exact .inl rfl
    rcases hx with hx | hx
    · exact h.lawful.correlated.lt_length (n := i) (by rwa [← hx, hp])
    · rw [← hp, hx] at hw
      cases hw
  obtain ⟨job, s⟩ := call
  refine congrArg (Call.mk job) ?_
  have hm : ∀ w : Waiter, w.ticket < c.correlator.mailboxes.length →
      w.moved c.correlator.mailboxes.length = w := fun w hl =>
    congrArg (Waiter.mk w.id) (if_pos hl)
  cases s with
  | send s =>
    obtain ⟨rest, size, waiter, due⟩ := s
    cases waiter with
    | none => rfl
    | some w =>
      dsimp only [Stage.moved, Sending.moved, Option.map]
      rw [hm w (hw w rfl)]
  | await w due =>
    dsimp only [Stage.moved]
    rw [hm w (hw w rfl)]
  | _ => rfl

theorem laden_skip (h : c.Entering n op) (past : List Incident) :
    { c.skip n e with journal := [] }.laden c.correlator.mailboxes.length past =
      { c.skip n e with
        correlator := { c.correlator with mailboxes := c.correlator.mailboxes ++ [.abandoned] }
        journal := past } := by
  have hs : (c.correlator.slots.map fun x =>
      (x.1, x.2.moved c.correlator.mailboxes.length)) = c.correlator.slots := by
    refine (List.map_congr_left fun x hx => ?_).trans (List.map_id _)
    obtain ⟨id, slot⟩ := x
    obtain ⟨i, w, hw, -, rfl, -, -⟩ :=
      h.lawful.correlated.of_lookup ((Entries.mem_iff_lookup h.keyed).1 hx)
    have hl := h.lawful.correlated.lt_length hw
    exact congrArg (fun t => (id, (⟨t, c.targetFor i⟩ : Correlator.Slot Target))) (if_pos hl)
  unfold laden Correlator.laden
  dsimp only
  rw [show (c.skip n e).correlator = c.correlator from rfl, hs, List.insertIdx_length_self,
    List.append_nil]
  congr 1
  exact (List.map_congr_left fun call hc => h.moved_eq hc).trans (List.map_id _)

/-- From then on the client does the same as if it had only used up a number. -/
theorem alike (h : c.Entering n op)
    (hl : c.config.frameLimit.toNat < (c.parcel (op.message c.nextId)).length) :
    ∃ fault, c.request n op = { c.skip n (.invalidArgument fault) with
      correlator := { c.correlator with mailboxes := c.correlator.mailboxes ++ [.abandoned] }
      journal := c.journal ++ [.registered n c.nextId, .sending n (op.message c.nextId),
        .unsent n (.invalidArgument fault), .left c.nextId] } ∧
      Alike (c.request n op) (c.skip n (.invalidArgument fault)) := by
  obtain ⟨fault, hf⟩ := h.request_eq hl
  refine ⟨fault, hf, ?_⟩
  have hm : c.correlator.mailboxes.length ≤
      (c.skip n (.invalidArgument fault)).correlator.mailboxes.length := Nat.le_refl _
  rw [hf, ← h.laden_skip]
  exact alike_laden _ hm

end Entering

end Client

end DocWire
