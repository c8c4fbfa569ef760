import DocWire.Proofs.Client.Alert
import DocWire.Proofs.Client.Guarded
import DocWire.Proofs.Client.Onward

/-! # Who speaks to the peer

Once there is a session, the peer takes bytes in one place only: where a call that has the write path
writes what is left of its frame (`Speaks.writes`). Everything else that a client does is silent
(`Silent`): the peer takes nothing, and the counter of requests stays. The counter moves on when an
operation that has the write path takes its number; nothing else uses one up. -/

namespace DocWire.Client

open DocWire.Correlator (Waiter Slot)

/-- Nothing goes out on the way from one client to another, and no number is used up. -/
structure Silent (b c : Client) : Prop where
  taken : c.peer.taken = b.peer.taken
  nextId : c.write.nextId = b.write.nextId

variable {b c c' d : Client} {n : Nat} {t : Task} {k : AfterClose} {waiter : Option Waiter}
  {s : Stage}

namespace Silent

theorem refl (c : Client) : Silent c c := ⟨rfl, rfl⟩

theorem trans (h : Silent b c) (h' : Silent c c') : Silent b c' :=
  ⟨h'.taken.trans h.taken, h'.nextId.trans h.nextId⟩

theorem of_core (h : Silent b c) (hq : c'.core = c.core) : Silent b c' := by
  have ht := congrArg (fun d : Client => d.peer.taken) hq
  have hi := congrArg (fun d : Client => d.write.nextId) hq
  exact h.trans ⟨ht, hi⟩

theorem of_eq (h : Silent b c) (ht : c'.peer.taken = c.peer.taken) (hw : c'.write = c.write) :
    Silent b c' :=
  h.trans ⟨ht, congrArg WritePath.nextId hw⟩

theorem setWrite (h : Silent b c) {write : WritePath} (hi : write.nextId = c.write.nextId) :
    Silent b { c with write := write } :=
  h.trans ⟨rfl, hi⟩

theorem setStage (h : Silent b c) (n : Nat) (s : Stage) : Silent b (c.setStage n s) :=
  h.of_eq rfl rfl

theorem finish (h : Silent b c) (n : Nat) (r : Except Failure Outcome) : Silent b (c.finish n r) :=
  h.of_eq rfl rfl

theorem setTimer (h : Silent b c) (n due : Nat) : Silent b (c.setTimer n due) :=
  h.of_core (core_setTimer c n due)

theorem wakeDecided (h : Silent b c) : Silent b c.wakeDecided := h.of_core (core_wakeDecided c)

theorem leaveWritePath (h : Silent b c) : Silent b c.leaveWritePath :=
  (h.setWrite (WritePath.nextId_leave _)).of_core (core_leaveWritePath c)

theorem release (h : Silent b c) : Silent b c.release :=
  (h.setWrite (WritePath.nextId_release _)).of_core (core_release c)

theorem dropHalf (h : Silent b c) : Silent b c.dropHalf := h.setWrite (WritePath.nextId_dropHalf _)

theorem withdraw (h : Silent b c) (t : Task) : Silent b (c.withdraw t) :=
  (h.setWrite (WritePath.nextId_withdraw _ _)).of_core (core_withdraw c t)

theorem forget (h : Silent b c) (w : Waiter) : Silent b (c.forget w) := h.of_eq rfl rfl

theorem leave (h : Silent b c) (w : Waiter) : Silent b (c.leave w) := (h.forget w).wakeDecided

theorem leaveIfAny (h : Silent b c) (waiter : Option Waiter) : Silent b (c.leaveIfAny waiter) := by
  cases waiter with
  | none => exact h
  | some w => exact h.leave w

/-! ### Closing -/

theorem endReader (h : Silent b c) : Silent b c.endReader := by
  unfold Client.endReader
  refine .of_core ?_ (core_wakeCalls _ _)
  dsimp only
  split
  · exact h.of_eq rfl rfl
  · have hr : Silent b { c with reader := .ended } := h.of_eq rfl rfl
    exact hr.dropHalf

theorem joinReader (h : Silent b c) (n : Nat) : Silent b (c.joinReader n) := by
  unfold Client.joinReader
  dsimp only
  split
  · split <;> exact h.of_eq rfl rfl
  · exact h.finish n _

theorem afterClose (h : Silent b c) (t : Task) (k : AfterClose) : Silent b (c.afterClose t k) := by
  cases t with
  | reader => exact h.endReader
  | call n =>
    cases k with
    | finish r => exact h.finish n r
    | join => exact h.joinReader n

theorem shutHalf (h : Silent b c) (t : Task) (k : AfterClose) : Silent b (c.shutHalf t k) := by
  have hp : ∀ {r peer}, c.peer.askShutdown = (r, peer) → peer.taken = c.peer.taken := by
    rintro r peer hp
    cases hp
    rfl
  unfold Client.shutHalf
  split
  next peer hx => exact h.of_eq (hp hx) rfl
  next r peer _ hx =>
    refine Silent.afterClose ?_ t k
    exact h.trans ⟨hp hx, rfl⟩

theorem toShutdown (h : Silent b c) (k : AfterClose) (t : Task) : Silent b (c.toShutdown k t) := by
  cases t <;> exact h.of_eq rfl rfl

theorem toCloseLock (h : Silent b c) (k : AfterClose) (t : Task) : Silent b (c.toCloseLock k t) := by
  cases t <;> exact h.of_eq rfl rfl

theorem takeHalf (h : Silent b c) (t : Task) (k : AfterClose) : Silent b (c.takeHalf t k) := by
  unfold Client.takeHalf
  split
  · have hl : Silent b { c with write := { c.write with half := .leaving } } := h.setWrite rfl
    exact (hl.release.toShutdown k t).shutHalf t k
  · have hl : Silent b { c.release with life := .closed } := h.release.of_eq rfl rfl
    exact hl.afterClose t k

theorem lineUpToClose (h : Silent b c) (t : Task) (k : AfterClose) :
    Silent b (c.lineUpToClose t k) := by
  have hw : Silent b { c with write := c.write.acquire t } := h.setWrite (WritePath.nextId_acquire _ _)
  unfold Client.lineUpToClose
  dsimp only
  split
  · exact hw.takeHalf t k
  · exact hw

theorem close (h : Silent b c) (t : Task) (k : AfterClose) : Silent b (c.close t k) := by
  unfold Client.close
  split
  · have hb : Silent b (c.toCloseLock k t).breakOff := (h.toCloseLock k t).of_eq rfl rfl
    exact (hb.wakeDecided.of_core (core_askStop _)).lineUpToClose t k
  · exact h.afterClose t k

/-! ### Waiting and failing -/

theorem conclude (h : Silent b c) (n : Nat) (w : Waiter) (r : Except Failure Reply) :
    Silent b (c.conclude n w r) := by
  cases r with
  | error e => exact (h.forget w).setStage n _
  | ok reply =>
    unfold Client.conclude
    dsimp only
    split <;> exact (h.forget w).of_eq rfl rfl

theorem awaitReply (h : Silent b c) (n : Nat) (w : Waiter) (due : Nat) :
    Silent b (c.awaitReply n w due) := by
  unfold Client.awaitReply
  split
  · exact ((h.of_core (core_clearTimer c n)).conclude n w _).wakeDecided
  · exact h.setTimer n due

theorem failSending (h : Silent b c) (n : Nat) (waiter : Option Waiter) (e : Failure) :
    Silent b (c.failSending n waiter e) := by
  have hu : Silent b ((c.record (.unsent n e)).clearTimer n) := h.of_eq rfl rfl
  have hl : Silent b ((((c.record (.unsent n e)).clearTimer n).leaveWritePath).leaveIfAny waiter) :=
    hu.leaveWritePath.leaveIfAny waiter
  unfold Client.failSending
  dsimp only
  split
  · exact hl.close _ _
  · exact hl.finish n _

theorem afterSending (h : Silent b c) (n : Nat) (waiter : Option Waiter) :
    Silent b (c.afterSending n waiter) := by
  have hs : Silent b ((c.record (.sent n c.now)).clearTimer n) := h.of_eq rfl rfl
  have hl : Silent b (((c.record (.sent n c.now)).clearTimer n).leaveWritePath) := hs.leaveWritePath
  cases waiter with
  | some w => exact (hl.setStage n _).awaitReply n w _
  | none => exact hl.finish n _

theorem holdSending (h : Silent b c) (n : Nat) (s : Sending) : Silent b (c.holdSending n s) := by
  unfold Client.holdSending
  split
  · exact h.failSending n _ _
  · exact h.setTimer n _

/-! ### Reading -/

theorem route (h : Silent b c) (f : Frame) : Silent b (c.route f) := by
  refine .of_core ?_ (core_route c f)
  have hr : Silent b (c.record (.routed f)) := h.of_eq rfl rfl
  refine hr.of_eq ?_ (write_routed _ f)
  unfold routed
  split
  · split <;> rfl
  · unfold dispatch
    split <;> rfl
  · rfl

theorem readFrames (h : Silent b c) (fuel : Nat) (buffer : Frame.Buffer) :
    Silent b (c.readFrames fuel buffer) := by
  induction fuel generalizing c buffer with
  | zero => exact h.of_eq rfl rfl
  | succ fuel ih =>
    have hq : ∀ source, Silent b { c with source := source } := fun source => h.of_eq rfl rfl
    unfold Client.readFrames
    split
    · split
      · exact ih ((hq _).route _) _
      · exact (hq _).endReader
    · exact h.of_eq rfl rfl
    · split
      · exact (hq _).close _ _
      · exact (hq _).endReader

theorem runReader (h : Silent b c) : Silent b c.runReader := by
  unfold Client.runReader
  split
  next buffer _ =>
    split
    · have hs : Silent b { c with stopAsked := false } := h.of_eq rfl rfl
      dsimp only
      split
      · exact hs.close _ _
      · exact hs.endReader
    · exact h.readFrames _ _
  · split
    · exact h.takeHalf _ _
    · exact h
  · exact h.shutHalf _ _
  · exact h
  · exact h

theorem overlook (h : Silent b c) (count : Nat) : Silent b (c.overlook count) := by
  unfold Client.overlook
  split
  · exact h.readFrames _ _
  · exact h

/-! ### What happens from outside -/

theorem cancelCall (h : Silent b c) (n : Nat) : Silent b (c.cancelCall n) := by
  have hd : Silent b ((c.clearTimer n).setStage n .dropped) := h.of_eq rfl rfl
  unfold Client.cancelCall
  dsimp only
  split
  · exact hd.trans ⟨rfl, rfl⟩
  · exact hd.withdraw _
  · exact hd.withdraw _
  · exact (hd.leaveIfAny _).leaveWritePath
  · exact hd.leave _
  · exact hd.setWrite rfl
  · exact hd
  · exact hd
  · exact h
  · exact h

theorem letGo (h : Silent b c) : Silent b c.letGo := by
  unfold Client.letGo
  split
  · have hh : Silent b { c with held := false } := h.of_eq rfl rfl
    have ha : Silent b ({ c with held := false } : Client).askStop := hh.of_core (core_askStop _)
    dsimp only
    split
    · exact ha
    · exact ha.dropHalf
  · exact h

theorem act (h : Silent b c) (a : Action) : Silent b (c.act a) := by
  cases a with
  | start job =>
    refine .of_core ?_ (core_wake _ _)
    exact h.of_eq rfl rfl
  | cancel n => exact h.cancelCall n
  | feed more =>
    refine .of_core ?_ (core_wakeReaders _)
    exact h.of_eq rfl rfl
  | change change =>
    refine .of_core ?_ (core_wakeWriters _)
    exact h.of_eq rfl rfl
  | advance millis =>
    refine .of_core ?_ (core_fireTimers _)
    exact h.of_eq rfl rfl
  | part => exact h.of_core (core_takeLeave c)
  | drop =>
    refine Silent.letGo ?_
    generalize List.range c.calls.length = l
    induction l generalizing c with
    | nil => exact h
    | cons n l ih => exact ih (h.cancelCall n)

end Silent

/-! ### Calls -/

theorem nextId_writeOn (c : Client) (n : Nat) (s : Sending) :
    (c.writeOn n s).write.nextId = c.write.nextId := by
  unfold writeOn
  generalize c.peer.write s.rest = out
  obtain ⟨written, peer⟩ := out
  dsimp only
  generalize hs : ({ s with rest := written.rest } : Sending) = s'
  have h : Silent { c with peer := peer } (({ c with peer := peer } : Client).sendRest n s') :=
    ⟨rfl, rfl⟩
  refine Eq.trans (Silent.nextId (b := { c with peer := peer }) ?_) rfl
  cases written with
  | all =>
    dsimp only
    split
    · exact h.afterSending n _
    · exact h.holdSending n _
    · exact h.failSending n _ _
  | waiting rest => exact h.holdSending n _
  | nothing rest => exact h.failSending n _ _
  | failed text rest => exact h.failSending n _ _

/-- A call is an operation, and it is its turn to use up a number. -/
def MayCount (c : Client) (n next : Nat) : Prop :=
  next = c.write.nextId ∨ next = c.write.nextId + 1 ∧ ∃ op, c.job n = .operation op

/-- What a turn of a call comes to, as the peer sees it: it takes nothing, it takes what is left of
the frame that the call has set out to send, or there is no session yet. -/
inductive Speaks (c : Client) (n : Nat) (c' : Client) : Prop
  | silent (ht : c'.peer.taken = c.peer.taken) (hi : c.MayCount n c'.write.nextId)
  | writes {d : Client} {s : Sending} (hw : c' = d.writeOn n s) (hm : c.Moves d)
    (hp : d.peer = c.peer) (hs : d.stage n = .send s) (hi : c.MayCount n d.write.nextId)
  | shakes (hs : c.session = none) (hi : c'.write.nextId = c.write.nextId)

theorem Silent.speaks (h : Silent c c') : Speaks c n c' := .silent h.taken (.inl h.nextId)

/-- A call that has its message sets out to send it. -/
theorem speaks_sendMessage {m : ClientMessage} (hm : c.Moves d)
    (he : d.Enters n m waiter (c'.record (.sending n m))) (hp : c'.peer = c.peer)
    (hi : c.MayCount n c'.write.nextId) : Speaks c n (c'.sendMessage n waiter m) := by
  have h : Silent c' (c'.record (.sending n m)) := ⟨rfl, rfl⟩
  have hfail : ∀ e, Speaks c n ((c'.record (.sending n m)).failSending n waiter e) := fun e => by
    have hx := h.failSending n waiter e
    refine .silent (hx.taken.trans (congrArg Stream.Sink.taken hp)) ?_
    rwa [hx.nextId]
  unfold sendMessage
  dsimp only
  split
  · exact hfail _
  next bytes hf =>
    split
    next hw =>
      rw [he.frameOf_eq] at hf
      rw [he.half_eq] at hw
      have hb := Moves.one (.begin he hf hw) rfl
      rw [← he.requestDue_eq] at hb
      have hn : n < d.calls.length := (Sends.atOnce he).lt_length
      rw [← he.calls_eq] at hn
      exact .writes rfl (hm.trans hb) hp (stage_setStage_self hn _) hi
    next => exact hfail _

theorem speaks_useWritePath (hm : c.Moves d) (hp : d.peer = c.peer) (hj : d.job n = c.job n)
    (hi : d.write.nextId = c.write.nextId) (hs : d.stage n = .lock)
    (hh : d.holds (.call n) = true) : Speaks c n (d.useWritePath n) := by
  have hd : Silent c d := ⟨congrArg Stream.Sink.taken hp, hi⟩
  unfold useWritePath
  split
  next op hop =>
    have hcount : c.MayCount n d.useId.write.nextId :=
      .inr ⟨congrArg Nat.succ hi, op, hj.symm.trans hop⟩
    unfold request
    split
    next e hr =>
      have hl := (Silent.refl d.useId).leaveWritePath.finish n (.error e)
      refine .silent (hl.taken.trans hd.taken) ?_
      rwa [hl.nextId]
    next w correlator hr => exact speaks_sendMessage hm (.request hs hh hop hr) hp hcount
  next id hop => exact speaks_sendMessage hm (.farewell hs hh hop) hp (.inl hi)
  next => exact (hd.leaveWritePath.finish n _).speaks

theorem speaks_goForWritePath (hm : c.Moves d) (hp : d.peer = c.peer) (hj : d.job n = c.job n)
    (hi : d.write.nextId = c.write.nextId) (hs : d.stage n = .fresh) (hl : d.life = .connected)
    (hx : (∃ op, d.job n = .operation op) ∨ ∃ id, d.job n = .unsubscribe (some id)) :
    Speaks c n (d.goForWritePath n) := by
  have hline := hm.trans (.one (.lineUp hs hl hx) rfl)
  have hn : n < d.calls.length := lt_of_stage_ne_dropped (by simp [hs])
  have hi' : (d.write.acquire (.call n)).nextId = c.write.nextId := by
    rw [WritePath.nextId_acquire, hi]
  unfold goForWritePath
  dsimp only
  split
  next hh =>
    exact speaks_useWritePath hline hp ((job_setStage _ _ _ _).trans hj) hi'
      (stage_setStage_self hn _) hh
  next => exact .silent (congrArg Stream.Sink.taken hp) (.inl hi')

theorem speaks_runHandshake (hs : c.session = none) (h : Silent c d) {e : Handshake.Exchange}
    {due : Nat} : Speaks c n (d.runHandshake n e due) := by
  refine .shakes hs (Eq.trans ?_ h.nextId)
  unfold runHandshake
  split
  next session source peer _ =>
    refine (Silent.nextId (b := { d with source := source, peer := peer }.accept session) ?_)
    exact Silent.finish ((Silent.refl _).of_core (core_wake _ _)) n _
  · rfl
  next source peer _ =>
    dsimp only
    split
    · rfl
    · exact (Silent.nextId (b := { d with source := source, peer := peer })
        (((Silent.refl _).setTimer n _).setStage n _))

theorem speaks_shakeHands (hs : c.session = none) (first : Except Failure (List UInt8)) :
    Speaks c n (c.shakeHands n first) := by
  cases first with
  | error e => exact .shakes hs rfl
  | ok bytes =>
    have hc : Silent c (({ c with write := { c.write with half := .unsplit } }).setStage n
      (.handshake (.writing bytes) (c.now + c.config.connectTimeout.toMillis))) := ⟨rfl, rfl⟩
    exact speaks_runHandshake hs hc

theorem speaks_startOperation {op : Operation} (hs : c.stage n = .fresh)
    (hj : c.job n = .operation op) : Speaks c n (c.startOperation n op) := by
  have h := Silent.refl c
  unfold startOperation
  split
  · exact (h.finish n _).speaks
  · split
    next hl =>
      exact speaks_goForWritePath (.refl c) rfl rfl rfl hs ((isConnected_iff c).1 hl)
        (.inl ⟨op, hj⟩)
    next => exact (h.finish n _).speaks

theorem speaks_startUnsubscribe {id : String} (hs : c.stage n = .fresh)
    (hj : c.job n = .unsubscribe (some id)) : Speaks c n (c.startUnsubscribe n id) := by
  unfold startUnsubscribe
  split
  next ha =>
    have hr : Silent c { c.record (.unsubscribed id) with
      routes := (c.routes.unsubscribe id).2 } := ⟨rfl, rfl⟩
    dsimp only
    split
    next hl =>
      exact speaks_goForWritePath (.one (.unroute hs hj ha) rfl) rfl rfl rfl hs
        ((isConnected_iff c).1 hl) (.inr ⟨id, hj⟩)
    next => exact (hr.finish n _).speaks
  next => exact ((Silent.refl c).finish n _).speaks

theorem Guarded.speaks_runCall (hg : Guarded c) (n : Nat) : Speaks c n (c.runCall n) := by
  have h := Silent.refl c
  unfold runCall
  split
  next hs =>
    split
    · split
      next hu => exact speaks_shakeHands (hg.young (.inl hu)) _
      next => exact (h.finish n _).speaks
    next op hj => exact speaks_startOperation hs hj
    next id hj => exact speaks_startUnsubscribe hs hj
    · exact (h.finish n _).speaks
    · exact (h.close _ _).speaks
  next e due hs => exact speaks_runHandshake (hg.young (.inr (hg.half_of_handshake hs))) h
  next hs =>
    split
    next hh => exact speaks_useWritePath (.refl c) rfl rfl rfl hs hh
    next => exact h.speaks
  next s hs => exact .writes rfl (.refl c) rfl hs (.inl rfl)
  next w due _ => exact (h.awaitReply n w due).speaks
  · split
    · exact (h.takeHalf _ _).speaks
    · exact h.speaks
  · exact (h.shutHalf _ _).speaks
  · split
    · exact (h.finish n _).speaks
    · exact h.speaks
  · exact h.speaks
  · exact h.speaks

/-- **Whatever happens, the peer takes nothing and no number is used up, unless a call takes its
turn.** -/
theorem Guarded.speaks (hg : Guarded c) (h : c.Goes c') :
    Silent c c' ∨ ∃ n, c' = c.turn (.call n) ∧ Speaks c n c' := by
  cases h with
  | overlook count => exact .inl ((Silent.refl c).overlook count)
  | follows hf =>
    cases hf with
    | act a => exact .inl ((Silent.refl c).act a)
    | turn t =>
      have hq : Silent c { c with ready := c.ready.erase t } := ⟨rfl, rfl⟩
      cases t with
      | reader => exact .inl hq.runReader
      | call n =>
        refine .inr ⟨n, rfl, ?_⟩
        have hg' : Guarded { c with ready := c.ready.erase (.call n) } := hg.congr rfl
        have hm : c.Moves { c with ready := c.ready.erase (.call n) } := .quiet rfl
        change Speaks c n (({ c with ready := c.ready.erase (.call n) } : Client).runCall n)
        cases hg'.speaks_runCall n with
        | silent ht hi => exact .silent ht hi
        | writes hw hm' hp hs hi => exact .writes hw (hm.trans hm') hp hs hi
        | shakes hs hi => exact .shakes hs hi

end DocWire.Client
