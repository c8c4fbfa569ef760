import DocWire.Client.Run
import DocWire.Proofs.Correlator.Laden

/-! # What is over has no part in what comes

A registration that has come to nothing leaves a mailbox behind, and what has been written down
stays. Neither has a part in what a client does. `laden` puts the mailbox of such a registration into
a client, and something that was written down before everything else. Mailboxes are only looked up,
and journals are not read, so every function that a client is made of commutes with it. -/

namespace DocWire

open DocWire.Correlator (Waiter Slot)

def Sending.moved (m : Nat) (s : Sending) : Sending :=
  { s with waiter := s.waiter.map (·.moved m) }

/-- A stage once one more mailbox has been put in before number `m`. -/
def Stage.moved (m : Nat) : Stage → Stage
  | .send s => .send (s.moved m)
  | .await w due => .await (w.moved m) due
  | s => s

namespace Client

/-- The client with the mailbox of a registration that has come to nothing as number `m`, and with
`past` written down before everything else. -/
def laden (m : Nat) (past : List Incident) (c : Client) : Client :=
  { c with
    calls := c.calls.map fun call => { call with stage := call.stage.moved m }
    correlator := c.correlator.laden m
    journal := past ++ c.journal }

variable {m : Nat} {past : List Incident}

/-! ### Tasks, timers and the lock -/

theorem stage_laden (c : Client) (n : Nat) :
    (c.laden m past).stage n = (c.stage n).moved m := by
  unfold stage laden
  dsimp only
  rw [List.getElem?_map]
  cases c.calls[n]? <;> rfl

theorem job_laden (c : Client) (n : Nat) : (c.laden m past).job n = c.job n := by
  unfold job laden
  dsimp only
  rw [List.getElem?_map]
  cases c.calls[n]? <;> rfl

theorem record_laden (c : Client) (i : Incident) :
    (c.laden m past).record i = (c.record i).laden m past :=
  congrArg (fun l => { c.laden m past with journal := l }) (List.append_assoc _ _ _)

theorem setStage_laden (c : Client) (n : Nat) (s : Stage) :
    (c.laden m past).setStage n (s.moved m) = (c.setStage n s).laden m past := by
  refine congrArg (fun l => { c.laden m past with calls := l }) (List.ext_getElem? fun i => ?_)
  unfold laden setStage
  dsimp only
  rw [List.getElem?_modify, List.getElem?_map, List.getElem?_map, List.getElem?_modify]
  split
  · cases c.calls[i]? <;> rfl
  · cases c.calls[i]? <;> rfl

theorem wake_laden (c : Client) (t : Task) :
    (c.laden m past).wake t = (c.wake t).laden m past :=
  (apply_ite (laden m past) (t ∈ c.ready) c { c with ready := c.ready ++ [t] }).symm

theorem wakeFirst_laden (c : Client) (l : List Task) :
    (c.laden m past).wakeFirst l = (c.wakeFirst l).laden m past := by
  cases l with
  | nil => rfl
  | cons t l => exact wake_laden c t

theorem clearTimer_laden (c : Client) (n : Nat) :
    (c.laden m past).clearTimer n = (c.clearTimer n).laden m past := rfl

theorem setTimer_laden (c : Client) (n due : Nat) :
    (c.laden m past).setTimer n due = (c.setTimer n due).laden m past :=
  (apply_ite (laden m past) ((⟨due, n⟩ : Timer) ∈ c.timers) c
    { c.clearTimer n with timers := (c.clearTimer n).timers ++ [⟨due, n⟩] }).symm

theorem finish_laden (c : Client) (n : Nat) (r : Except Failure Outcome) :
    (c.laden m past).finish n r = (c.finish n r).laden m past :=
  setStage_laden (c.clearTimer n) n (.done r)

theorem release_laden (c : Client) : (c.laden m past).release = c.release.laden m past :=
  wakeFirst_laden { c with write := c.write.release } c.write.queue

theorem askStop_laden (c : Client) : (c.laden m past).askStop = c.askStop.laden m past :=
  wake_laden { c with stopAsked := true } .reader

theorem leaveWritePath_laden (c : Client) :
    (c.laden m past).leaveWritePath = c.leaveWritePath.laden m past := by
  have hv : (if c.write.torn then (c.laden m past).vacate.wake .reader else
      (c.laden m past).vacate) =
      (if c.write.torn then c.vacate.wake .reader else c.vacate).laden m past := by
    rw [apply_ite (laden m past), ← wake_laden]
    rfl
  exact (congrArg (wakeFirst · c.write.queue) hv).trans (wakeFirst_laden _ _)

theorem withdraw_laden (c : Client) (t : Task) :
    (c.laden m past).withdraw t = (c.withdraw t).laden m past := by
  have hw : c.withdraw t =
    if c.holds t then c.release else { c with write := c.write.withdraw t } := rfl
  rw [hw, apply_ite (laden m past), ← release_laden]
  rfl

/-- Calls are woken by how far they have come. -/
theorem wakeCalls_laden (c : Client) {p p' : Stage → Bool} (hp : ∀ s, p' (s.moved m) = p s) :
    (c.laden m past).wakeCalls p' = (c.wakeCalls p).laden m past := by
  have hf : ∀ (l : List Nat) (d : Client),
      l.foldl (fun d n => if p' (d.stage n) then d.wake (.call n) else d) (d.laden m past) =
        (l.foldl (fun d n => if p (d.stage n) then d.wake (.call n) else d) d).laden m past := by
    intro l
    induction l with
    | nil => exact fun _ => rfl
    | cons n l ih =>
      intro d
      rw [List.foldl_cons, List.foldl_cons, ← ih, stage_laden, hp, wake_laden,
        apply_ite (laden m past)]
  have hl : (c.laden m past).calls.length = c.calls.length := List.length_map _
  unfold wakeCalls
  rw [hl]
  exact hf _ c

theorem isDecided_laden (c : Client) (s : Stage) :
    (c.laden m past).isDecided (s.moved m) = c.isDecided s := by
  cases s with
  | await w due =>
    have hm : (c.laden m past).correlator.mailbox (w.moved m).ticket =
      c.correlator.mailbox w.ticket := Correlator.mailbox_laden _ _
    unfold isDecided Stage.moved
    dsimp only
    rw [hm]
  | _ => rfl

theorem wakeDecided_laden (c : Client) :
    (c.laden m past).wakeDecided = c.wakeDecided.laden m past :=
  wakeCalls_laden c (isDecided_laden c)

theorem forget_laden (c : Client) (w : Waiter) :
    (c.laden m past).forget (w.moved m) = (c.forget w).laden m past := by
  unfold forget
  rw [show (c.laden m past).correlator = c.correlator.laden m from rfl, Correlator.leave_laden,
    show (w.moved m).id = w.id from rfl, record_laden]
  rfl

theorem leave_laden (c : Client) (w : Waiter) :
    (c.laden m past).leave (w.moved m) = (c.leave w).laden m past := by
  unfold leave
  rw [forget_laden, wakeDecided_laden]

theorem leaveIfAny_laden (c : Client) (waiter : Option Waiter) :
    (c.laden m past).leaveIfAny (waiter.map (·.moved m)) = (c.leaveIfAny waiter).laden m past := by
  cases waiter with
  | none => rfl
  | some w => exact leave_laden c w

/-! ### Closing -/

theorem joins_moved (s : Stage) : (s.moved m).joins = s.joins := by cases s <;> rfl

theorem endReader_laden (c : Client) : (c.laden m past).endReader = c.endReader.laden m past := by
  have hd : c.endReader = (if c.held then { c with reader := .ended } else
    ({ c with reader := .ended } : Client).dropHalf).wakeCalls Stage.joins := rfl
  rw [hd, ← wakeCalls_laden _ joins_moved, apply_ite (laden m past)]
  rfl

theorem joinReader_laden (c : Client) (n : Nat) :
    (c.laden m past).joinReader n = (c.joinReader n).laden m past := by
  have hd : c.joinReader n = if c.joinable then
      if c.reader = .ended then ({ c with joinable := false } : Client).finish n (.ok .done)
      else ({ c with joinable := false } : Client).setStage n .join
    else c.finish n (.ok .done) := rfl
  rw [hd, apply_ite (laden m past), apply_ite (laden m past), ← finish_laden, ← finish_laden,
    ← setStage_laden]
  rfl

theorem afterClose_laden (c : Client) (t : Task) (k : AfterClose) :
    (c.laden m past).afterClose t k = (c.afterClose t k).laden m past := by
  cases t with
  | reader => exact endReader_laden c
  | call n =>
    cases k with
    | finish r => exact finish_laden c n r
    | join => exact joinReader_laden c n

theorem shutHalf_laden (c : Client) (t : Task) (k : AfterClose) :
    (c.laden m past).shutHalf t k = (c.shutHalf t k).laden m past := by
  unfold shutHalf
  rw [show (c.laden m past).peer = c.peer from rfl]
  rcases c.peer.askShutdown with ⟨r, peer⟩
  cases r with
  | waits => rfl
  | ready => exact afterClose_laden { c with
      peer := peer, write := { c.write with half := .gone }, life := .closed } t k
  | fails text => exact afterClose_laden { c with
      peer := peer, write := { c.write with half := .gone }, life := .closed } t k

theorem toShutdown_laden (c : Client) (k : AfterClose) (t : Task) :
    (c.laden m past).toShutdown k t = (c.toShutdown k t).laden m past := by
  cases t with
  | reader => rfl
  | call n => exact setStage_laden c n (.closeShutdown k)

theorem toCloseLock_laden (c : Client) (k : AfterClose) (t : Task) :
    (c.laden m past).toCloseLock k t = (c.toCloseLock k t).laden m past := by
  cases t with
  | reader => rfl
  | call n => exact setStage_laden c n (.closeLock k)

theorem takeHalf_laden (c : Client) (t : Task) (k : AfterClose) :
    (c.laden m past).takeHalf t k = (c.takeHalf t k).laden m past := by
  have hl : ({ c.laden m past with write := { c.write with half := .leaving } } : Client).release =
    ({ c with write := { c.write with half := .leaving } } : Client).release.laden m past :=
    release_laden { c with write := { c.write with half := .leaving } }
  have hc : ({ (c.laden m past).release with life := .closed } : Client) =
      { c.release with life := .closed }.laden m past := by
    rw [release_laden]
    rfl
  unfold takeHalf
  rw [show (c.laden m past).write = c.write from rfl, hl, hc, toShutdown_laden, shutHalf_laden,
    afterClose_laden, apply_ite (laden m past)]

theorem breakOff_laden (c : Client) : (c.laden m past).breakOff = c.breakOff.laden m past := by
  unfold breakOff
  rw [show (c.laden m past).correlator = c.correlator.laden m from rfl, Correlator.failAll_laden,
    record_laden]
  rfl

theorem lineUpToClose_laden (c : Client) (t : Task) (k : AfterClose) :
    (c.laden m past).lineUpToClose t k = (c.lineUpToClose t k).laden m past := by
  have ht : (({ c with write := c.write.acquire t } : Client).laden m past).takeHalf t k =
      (({ c with write := c.write.acquire t } : Client).takeHalf t k).laden m past :=
    takeHalf_laden _ t k
  have hd : c.lineUpToClose t k = if ({ c with write := c.write.acquire t } : Client).holds t then
    ({ c with write := c.write.acquire t } : Client).takeHalf t k
    else { c with write := c.write.acquire t } := rfl
  rw [hd, apply_ite (laden m past), ← ht]
  rfl

theorem close_laden (c : Client) (t : Task) (k : AfterClose) :
    (c.laden m past).close t k = (c.close t k).laden m past := by
  unfold close
  rw [show (c.laden m past).life = c.life from rfl, toCloseLock_laden, breakOff_laden,
    wakeDecided_laden, askStop_laden, lineUpToClose_laden, afterClose_laden,
    apply_ite (laden m past)]

/-! ### Sending -/

theorem reject_laden (c : Client) (id : String) :
    (c.laden m past).reject id = (c.reject id).laden m past := by
  unfold reject
  rw [record_laden]
  rfl

theorem failSending_laden (c : Client) (n : Nat) (waiter : Option Waiter) (e : Failure) :
    (c.laden m past).failSending n (waiter.map (·.moved m)) e =
      (c.failSending n waiter e).laden m past := by
  unfold failSending
  rw [record_laden, clearTimer_laden, leaveWritePath_laden, leaveIfAny_laden]
  dsimp only
  rw [job_laden, close_laden, finish_laden, apply_ite (laden m past)]

theorem conclude_laden (c : Client) (n : Nat) (w : Waiter) (r : Except Failure Reply) :
    (c.laden m past).conclude n (w.moved m) r = (c.conclude n w r).laden m past := by
  unfold conclude
  cases r with
  | error e =>
    dsimp only
    rw [forget_laden]
    exact setStage_laden _ n (.done _)
  | ok reply =>
    dsimp only
    rw [forget_laden, record_laden, job_laden, show (w.moved m).id = w.id from rfl, reject_laden,
      ← apply_ite (laden m past)]
    exact setStage_laden _ n (.done _)

theorem awaitReply_laden (c : Client) (n : Nat) (w : Waiter) (due : Nat) :
    (c.laden m past).awaitReply n (w.moved m) due = (c.awaitReply n w due).laden m past := by
  have ho : (c.laden m past).correlator.outcome? (w.moved m) (due ≤ (c.laden m past).now)
      (c.laden m past).config.requestTimeout =
      c.correlator.outcome? w (due ≤ c.now) c.config.requestTimeout := Correlator.outcome?_laden ..
  unfold awaitReply
  rw [ho]
  cases c.correlator.outcome? w (due ≤ c.now) c.config.requestTimeout with
  | none => exact setTimer_laden c n due
  | some r =>
    dsimp only
    unfold endWait
    rw [clearTimer_laden, conclude_laden, wakeDecided_laden]

theorem afterSending_laden (c : Client) (n : Nat) (waiter : Option Waiter) :
    (c.laden m past).afterSending n (waiter.map (·.moved m)) =
      (c.afterSending n waiter).laden m past := by
  unfold afterSending
  rw [show (c.laden m past).now = c.now from rfl, record_laden, clearTimer_laden,
    leaveWritePath_laden]
  cases waiter with
  | none => exact finish_laden _ n _
  | some w =>
    dsimp only [Option.map]
    rw [← awaitReply_laden, ← setStage_laden]
    rfl

theorem holdSending_laden (c : Client) (n : Nat) (s : Sending) :
    (c.laden m past).holdSending n (s.moved m) = (c.holdSending n s).laden m past := by
  have hf : (c.laden m past).failSending n (s.waiter.map (·.moved m))
      (.sendFailed .frameNotWrittenInTime) =
      (c.failSending n s.waiter (.sendFailed .frameNotWrittenInTime)).laden m past :=
    failSending_laden c n s.waiter _
  unfold holdSending
  rw [apply_ite (laden m past), ← setTimer_laden, ← hf]
  rfl

theorem sendRest_laden (c : Client) (n : Nat) (s : Sending) :
    (c.laden m past).sendRest n (s.moved m) = (c.sendRest n s).laden m past :=
  setStage_laden { c with write := { c.write with
    torn := !s.rest.isEmpty && s.rest.length < s.size } } n (.send s)

theorem writeOn_laden (c : Client) (n : Nat) (s : Sending) :
    (c.laden m past).writeOn n (s.moved m) = (c.writeOn n s).laden m past := by
  unfold writeOn
  rw [show (c.laden m past).peer.write (s.moved m).rest = c.peer.write s.rest from rfl]
  rcases c.peer.write s.rest with ⟨written, peer⟩
  have hr : ({ c.laden m past with peer := peer } : Client).sendRest n
      { s.moved m with rest := written.rest } =
      (({ c with peer := peer } : Client).sendRest n { s with rest := written.rest }).laden m
        past :=
    sendRest_laden { c with peer := peer } n { s with rest := written.rest }
  have hh : ∀ d : Client, (d.laden m past).holdSending n { s.moved m with rest := written.rest } =
      (d.holdSending n { s with rest := written.rest }).laden m past :=
    fun d => holdSending_laden d n { s with rest := written.rest }
  dsimp only
  rw [hr]
  cases written with
  | all =>
    cases peer.onFlush with
    | ready => exact afterSending_laden _ n s.waiter
    | waits => exact hh _
    | fails text => exact failSending_laden _ n s.waiter _
  | waiting rest => exact hh _
  | nothing rest => exact failSending_laden _ n s.waiter _
  | failed text rest => exact failSending_laden _ n s.waiter _

theorem sendMessage_laden (c : Client) (n : Nat) (waiter : Option Waiter)
    (message : ClientMessage) :
    (c.laden m past).sendMessage n (waiter.map (·.moved m)) message =
      (c.sendMessage n waiter message).laden m past := by
  unfold sendMessage
  rw [record_laden]
  dsimp only
  rw [show ((c.record (.sending n message)).laden m past).frameOf? message =
    (c.record (.sending n message)).frameOf? message from rfl]
  cases (c.record (.sending n message)).frameOf? message with
  | error e => exact failSending_laden _ n waiter e
  | ok frame =>
    dsimp only
    rw [apply_ite (laden m past), ← failSending_laden, ← writeOn_laden, ← setStage_laden]
    rfl

theorem request_laden (c : Client) (hm : m ≤ c.correlator.mailboxes.length) (n : Nat)
    (op : Operation) : (c.laden m past).request n op = (c.request n op).laden m past := by
  have hr : (c.laden m past).correlator.register (c.laden m past).nextId (targetOf n op) = _ :=
    Correlator.register_laden c.correlator hm c.nextId (targetOf n op)
  unfold request
  rw [hr]
  cases c.correlator.register c.nextId (targetOf n op) with
  | error e =>
    have hl : (c.laden m past).useId.leaveWritePath = c.useId.leaveWritePath.laden m past :=
      leaveWritePath_laden c.useId
    dsimp only [Except.map]
    rw [hl, finish_laden]
  | ok p =>
    have hs : ({ (c.laden m past).useId with correlator := p.2.laden m } : Client).record
        (.registered n p.1.id) =
        (({ c.useId with correlator := p.2 } : Client).record (.registered n p.1.id)).laden m
          past :=
      record_laden { c.useId with correlator := p.2 } _
    dsimp only [Except.map]
    rw [show (p.1.moved m).id = p.1.id from rfl, hs]
    exact sendMessage_laden _ n (some p.1) _

theorem useWritePath_laden (c : Client) (hm : m ≤ c.correlator.mailboxes.length) (n : Nat) :
    (c.laden m past).useWritePath n = (c.useWritePath n).laden m past := by
  have hp : (c.laden m past).leaveWritePath.finish n (.ok .nothing) =
      (c.leaveWritePath.finish n (.ok .nothing)).laden m past := by
    rw [leaveWritePath_laden, finish_laden]
  unfold useWritePath
  rw [job_laden]
  cases c.job n with
  | operation op => exact request_laden c hm n op
  | unsubscribe subscription =>
    cases subscription with
    | some id => exact sendMessage_laden c n none _
    | none => exact hp
  | connect => exact hp
  | disconnect => exact hp

theorem goForWritePath_laden (c : Client) (hm : m ≤ c.correlator.mailboxes.length) (n : Nat) :
    (c.laden m past).goForWritePath n = (c.goForWritePath n).laden m past := by
  have hs : ({ c.laden m past with write := c.write.acquire (.call n) } : Client).setStage n .lock =
      (({ c with write := c.write.acquire (.call n) } : Client).setStage n .lock).laden m past :=
    setStage_laden { c with write := c.write.acquire (.call n) } n .lock
  unfold goForWritePath
  rw [show (c.laden m past).write = c.write from rfl, hs]
  generalize hd : ({ c with write := c.write.acquire (.call n) } : Client).setStage n .lock = d
  have hm' : m ≤ d.correlator.mailboxes.length := hd ▸ hm
  dsimp only
  rw [useWritePath_laden d hm', apply_ite (laden m past)]
  rfl

/-! ### Reading -/

theorem dispatch_laden (c : Client) (note : ChangeNotification) :
    (c.laden m past).dispatch note = (c.dispatch note).laden m past := by
  unfold dispatch
  rw [show (c.laden m past).routes = c.routes from rfl]
  cases c.routes.get? note.id with
  | none => rfl
  | some target => exact record_laden c _

theorem handOver_laden (c : Client) (id : String) (isError : Bool) (reply : Reply)
    (slot : Slot Target) : (c.laden m past).handOver id isError reply (slot.moved m) =
      (c.handOver id isError reply slot).laden m past := by
  unfold handOver
  rw [show (c.laden m past).correlator = c.correlator.laden m from rfl, Correlator.fulfill_laden]
  rfl

theorem resolve_laden (c : Client) (id : String) (isError : Bool) (reply : Reply) :
    (c.laden m past).resolve id isError reply = (c.resolve id isError reply).laden m past := by
  have ht : (c.laden m past).correlator.take id =
      ((c.correlator.slots.lookup id).map (·.moved m), (c.correlator.remove id).laden m) :=
    congrArg₂ Prod.mk (Correlator.lookup_laden _ _) (Correlator.remove_laden _ _)
  unfold resolve
  rw [ht, Correlator.take]
  cases c.correlator.slots.lookup id with
  | none => rfl
  | some slot =>
    dsimp only [Option.map]
    rw [← wakeDecided_laden, ← handOver_laden]
    rfl

theorem route_laden (c : Client) (f : Frame) :
    (c.laden m past).route f = (c.route f).laden m past := by
  unfold route
  rw [record_laden]
  dsimp only
  cases f.header.encoding? with
  | none => rfl
  | some encoding =>
    dsimp only
    unfold routePayload
    cases encoding.decode? Envelope.read? f.payload with
    | none => rfl
    | some envelope =>
      dsimp only
      cases envelope.id with
      | none => rfl
      | some id =>
        dsimp only
        rw [apply_ite (laden m past), ← resolve_laden]
        cases encoding.decode? ChangeNotification.read? f.payload with
        | none => rfl
        | some note =>
          dsimp only
          rw [dispatch_laden]

theorem stopReading_laden (c : Client) :
    (if c.isAlive then (c.laden m past).closeReader else (c.laden m past).endReader) =
      (if c.isAlive then c.closeReader else c.endReader).laden m past := by
  unfold closeReader
  rw [close_laden, endReader_laden, apply_ite (laden m past)]

theorem readFrames_laden (fuel : Nat) (c : Client) (b : Frame.Buffer) :
    (c.laden m past).readFrames fuel b = (c.readFrames fuel b).laden m past := by
  induction fuel generalizing c b with
  | zero => rfl
  | succ fuel ih =>
    unfold readFrames
    rw [show (c.laden m past).source = c.source from rfl,
      show (c.laden m past).isAlive = c.isAlive from rfl]
    rcases b.next c.source with ⟨out, b', source⟩
    cases out with
    | frame f =>
      dsimp only
      rw [apply_ite (laden m past), ← endReader_laden, ← ih, ← route_laden]
      rfl
    | waiting => rfl
    | _ => exact stopReading_laden { c with source := source }

theorem runReader_laden (c : Client) : (c.laden m past).runReader = c.runReader.laden m past := by
  unfold runReader
  rw [show (c.laden m past).reader = c.reader from rfl]
  cases c.reader with
  | reading b =>
    dsimp only
    rw [readFrames_laden, apply_ite (laden m past), ← stopReading_laden]
    rfl
  | closeLock =>
    dsimp only
    rw [takeHalf_laden, apply_ite (laden m past)]
    rfl
  | closeShutdown => exact shutHalf_laden c _ _
  | absent => rfl
  | ended => rfl

/-! ### Turns -/

theorem runHandshake_laden (c : Client) (n : Nat) (e : Handshake.Exchange) (due : Nat) :
    (c.laden m past).runHandshake n e due = (c.runHandshake n e due).laden m past := by
  unfold runHandshake
  rw [show (c.laden m past).source = c.source from rfl,
    show (c.laden m past).peer = c.peer from rfl]
  rcases e.run c.source c.peer with ⟨p, source, peer⟩
  have hd : ∀ f : Failure, ({ c.laden m past with source := source, peer := peer } :
      Client).dropStream.finish n (.error f) =
      (({ c with source := source, peer := peer } : Client).dropStream.finish n (.error f)).laden m
        past :=
    fun f => finish_laden ({ c with source := source, peer := peer } : Client).dropStream n _
  cases p with
  | done r =>
    cases r with
    | ok session =>
      have hw : (({ c.laden m past with source := source, peer := peer } : Client).accept
          session).wake .reader =
          ((({ c with source := source, peer := peer } : Client).accept session).wake .reader).laden
            m past :=
        wake_laden (({ c with source := source, peer := peer } : Client).accept session) .reader
      dsimp only
      rw [hw, finish_laden]
    | error f => exact hd f
  | stopped e' =>
    dsimp only
    rw [hd, apply_ite (laden m past), ← setStage_laden, ← setTimer_laden]
    rfl

theorem shakeHands_laden (c : Client) (n : Nat) (first : Except Failure (List UInt8)) :
    (c.laden m past).shakeHands n first = (c.shakeHands n first).laden m past := by
  cases first with
  | error e => exact finish_laden c.dropStream n (.error e)
  | ok bytes =>
    unfold shakeHands
    dsimp only
    rw [← runHandshake_laden, ← setStage_laden]
    rfl

theorem startOperation_laden (c : Client) (hm : m ≤ c.correlator.mailboxes.length) (n : Nat)
    (op : Operation) :
    (c.laden m past).startOperation n op = (c.startOperation n op).laden m past := by
  unfold startOperation
  cases op.refusal? with
  | some e => exact finish_laden c n _
  | none =>
    dsimp only
    rw [goForWritePath_laden c hm, finish_laden, apply_ite (laden m past)]
    rfl

theorem startUnsubscribe_laden (c : Client) (hm : m ≤ c.correlator.mailboxes.length) (n : Nat)
    (id : String) :
    (c.laden m past).startUnsubscribe n id = (c.startUnsubscribe n id).laden m past := by
  have hr : ({ (c.laden m past).record (.unsubscribed id) with
      routes := (c.routes.unsubscribe id).2 } : Client) =
      { c.record (.unsubscribed id) with routes := (c.routes.unsubscribe id).2 }.laden m past := by
    rw [record_laden]
    rfl
  unfold startUnsubscribe
  rw [show (c.laden m past).routes = c.routes from rfl, hr]
  generalize hd : ({ c.record (.unsubscribed id) with
    routes := (c.routes.unsubscribe id).2 } : Client) = d
  have hm' : m ≤ d.correlator.mailboxes.length := hd ▸ hm
  dsimp only
  rw [goForWritePath_laden d hm', finish_laden, finish_laden, apply_ite (laden m past),
    apply_ite (laden m past)]
  rfl

theorem runCall_laden (c : Client) (hm : m ≤ c.correlator.mailboxes.length) (n : Nat) :
    (c.laden m past).runCall n = (c.runCall n).laden m past := by
  unfold runCall
  rw [stage_laden]
  cases c.stage n with
  | fresh =>
    dsimp only [Stage.moved]
    rw [job_laden]
    cases c.job n with
    | connect =>
      have hs : (c.laden m past).startConnect n = (c.startConnect n).laden m past :=
        shakeHands_laden c n c.opening
      dsimp only
      rw [hs, finish_laden, apply_ite (laden m past)]
      rfl
    | operation op => exact startOperation_laden c hm n op
    | unsubscribe subscription =>
      cases subscription with
      | some id => exact startUnsubscribe_laden c hm n id
      | none => exact finish_laden c n _
    | disconnect => exact close_laden c _ _
  | handshake e due => exact runHandshake_laden c n e due
  | lock =>
    dsimp only [Stage.moved]
    rw [useWritePath_laden c hm, apply_ite (laden m past)]
    rfl
  | send s => exact writeOn_laden c n s
  | await w due => exact awaitReply_laden c n w due
  | closeLock k =>
    dsimp only [Stage.moved]
    rw [takeHalf_laden, apply_ite (laden m past)]
    rfl
  | closeShutdown k => exact shutHalf_laden c _ _
  | join =>
    dsimp only [Stage.moved]
    rw [finish_laden, apply_ite (laden m past)]
    rfl
  | done r => rfl
  | dropped => rfl

theorem turn_laden (c : Client) (hm : m ≤ c.correlator.mailboxes.length) (t : Task) :
    (c.laden m past).turn t = (c.turn t).laden m past := by
  cases t with
  | reader => exact runReader_laden { c with ready := c.ready.erase .reader }
  | call n => exact runCall_laden { c with ready := c.ready.erase (.call n) } hm n

/-! ### What happens from outside -/

theorem wakeWriters_laden (c : Client) :
    (c.laden m past).wakeWriters = c.wakeWriters.laden m past := by
  have hp : ∀ s : Stage, (s.moved m).waitsForPeer = s.waitsForPeer := fun s => by cases s <;> rfl
  unfold wakeWriters
  rw [wakeCalls_laden c hp]
  dsimp only
  rw [wake_laden, apply_ite (laden m past)]
  rfl

theorem wakeReaders_laden (c : Client) :
    (c.laden m past).wakeReaders = c.wakeReaders.laden m past := by
  have hp : ∀ s : Stage, (s.moved m).inHandshake = s.inHandshake := fun s => by cases s <;> rfl
  unfold wakeReaders
  rw [wakeCalls_laden c hp]
  generalize c.wakeCalls Stage.inHandshake = d
  dsimp only
  rw [show (d.laden m past).reader = d.reader from rfl]
  cases d.reader with
  | reading b => exact wake_laden d _
  | _ => rfl

theorem fireTimers_laden (c : Client) :
    (c.laden m past).fireTimers = c.fireTimers.laden m past := by
  have hf : ∀ (l : List Timer) (d : Client),
      l.foldl (fun d t => d.wake (.call t.call)) (d.laden m past) =
        (l.foldl (fun d t => d.wake (.call t.call)) d).laden m past := by
    intro l
    induction l with
    | nil => exact fun _ => rfl
    | cons t l ih =>
      intro d
      rw [List.foldl_cons, List.foldl_cons, wake_laden, ih]
  exact hf _ { c with timers := c.timers.filter fun t => c.now < t.due }

theorem cancelCall_laden (c : Client) (n : Nat) :
    (c.laden m past).cancelCall n = (c.cancelCall n).laden m past := by
  have hd : ((c.laden m past).clearTimer n).setStage n .dropped =
      ((c.clearTimer n).setStage n .dropped).laden m past :=
    setStage_laden (c.clearTimer n) n .dropped
  unfold cancelCall
  rw [stage_laden, hd]
  dsimp only
  cases c.stage n with
  | lock => exact withdraw_laden _ _
  | closeLock k => exact withdraw_laden _ _
  | send s =>
    dsimp only [Stage.moved, Sending.moved]
    rw [leaveIfAny_laden, leaveWritePath_laden]
  | await w due => exact leave_laden _ _
  | _ => rfl

theorem letGo_laden (c : Client) : (c.laden m past).letGo = c.letGo.laden m past := by
  have ha : ({ c.laden m past with held := false } : Client).askStop =
    ({ c with held := false } : Client).askStop.laden m past :=
    askStop_laden { c with held := false }
  unfold letGo
  rw [ha, apply_ite (laden m past)]
  dsimp only
  rw [apply_ite (laden m past)]
  rfl

theorem takeLeave_laden (c : Client) : (c.laden m past).takeLeave = c.takeLeave.laden m past := by
  have hc : ((c.laden m past).calls.all fun call => !call.stage.isOpen || call.job.unsubscribes) =
      c.calls.all fun call => !call.stage.isOpen || call.job.unsubscribes := by
    unfold laden
    dsimp only
    rw [List.all_map]
    congr 1
    funext call
    cases h : call.stage <;> simp [Stage.moved, Stage.isOpen, h]
  unfold takeLeave
  rw [hc, askStop_laden, apply_ite (laden m past)]
  rfl

theorem act_laden (c : Client) (a : Action) : (c.laden m past).act a = (c.act a).laden m past := by
  have hl : (c.laden m past).calls.length = c.calls.length := List.length_map _
  cases a with
  | start job =>
    have hc : ({ c.laden m past with
        calls := (c.laden m past).calls ++ [Call.mk job .fresh] } : Client) =
        { c with calls := c.calls ++ [Call.mk job .fresh] }.laden m past := by
      unfold laden
      dsimp only
      rw [List.map_append]
      rfl
    unfold act
    dsimp only
    rw [hl, hc, wake_laden]
  | cancel n => exact cancelCall_laden c n
  | feed more => exact wakeReaders_laden { c with source := c.source.feed more }
  | change d => exact wakeWriters_laden { c with peer := c.peer.change d }
  | advance millis => exact fireTimers_laden { c with now := c.now + millis }
  | part => exact takeLeave_laden c
  | drop =>
    have hf : ∀ (l : List Nat) (d : Client), l.foldl cancelCall (d.laden m past) =
        (l.foldl cancelCall d).laden m past := by
      intro l
      induction l with
      | nil => exact fun _ => rfl
      | cons n l ih =>
        intro d
        rw [List.foldl_cons, List.foldl_cons, cancelCall_laden, ih]
    unfold act
    dsimp only
    rw [hl, hf, letGo_laden]

end Client

end DocWire
