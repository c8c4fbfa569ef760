import DocWire.Proofs.Client.Alertness
import DocWire.Proofs.Client.Line
import DocWire.Proofs.Client.Sendings

/-! # Turns keep the line

Every function that a turn or an action runs through keeps the line for the write path in order, and
wakes whoever gets the write path next. So once all tasks wait, nobody stands in line unless the peer
holds someone up (`Lined.stalled`). -/

namespace DocWire.Client

open DocWire.Correlator (Waiter)

variable {b c c' : Client} {n : Nat} {t : Task} {k : AfterClose}

namespace Minds

/-! ### Closing -/

theorem ends (h : Minds (.call n) b c) (ho : .call n ∉ c.write.line) {s : Stage}
    (hs : s.contends = false) : Abides (.call n) b (c.setStage n s) :=
  (h.setStage s).abides ho (not_contends_setStage hs)

theorem finish (h : Minds (.call n) b c) (ho : .call n ∉ c.write.line)
    (r : Except Failure Outcome) : Abides (.call n) b (c.finish n r) := (h.clearTimer n).ends ho rfl

theorem endReader (h : Minds .reader b c) (ho : .reader ∉ c.write.line) :
    Abides .reader b c.endReader := by
  have hr := h.setReader .ended
  unfold Client.endReader
  refine Abides.wakeCalls ?_ _
  split
  · exact hr.abides ho nofun
  · have hq := WritePath.queue_dropHalf c.write
    refine Minds.abides ?_ ?_ nofun
    · exact hr.of_eq rfl (WritePath.holder_dropHalf _) hq (fun _ _ => rfl) (fun _ => rfl)
        (fun _ => id) rfl
    · unfold Client.dropHalf WritePath.line
      dsimp only
      rw [WritePath.holder_dropHalf, hq]
      exact ho

theorem joinReader (h : Minds (.call n) b c) (ho : .call n ∉ c.write.line) :
    Abides (.call n) b (c.joinReader n) := by
  have hj : Minds (.call n) b { c with joinable := false } := h.same rfl rfl rfl rfl rfl rfl
  unfold Client.joinReader
  split
  · dsimp only
    split
    · exact hj.finish ho _
    · exact hj.ends ho rfl
  · exact h.finish ho _

theorem afterClose (h : Minds t b c) (ho : t ∉ c.write.line) (k : AfterClose) :
    Abides t b (c.afterClose t k) := by
  cases t with
  | reader => exact h.endReader ho
  | call n =>
    cases k with
    | finish r => exact h.finish ho r
    | join => exact h.joinReader ho

theorem askShutdown (h : Minds t b c) : Minds t b { c with peer := c.peer.askShutdown.2 } where
  length := h.length
  ordered := h.ordered
  mem := h.mem
  woken x hx hn := by
    refine (h.woken x hx hn).imp_right fun hs => ?_
    cases x with
    | reader => exact hs
    | call m =>
      obtain ⟨s, hs, hp⟩ := hs
      exact ⟨s, hs, fun ht => hp (Stream.Sink.takes_askShutdown.1 ht)⟩
  kept x hx hn := by
    obtain ⟨hc, hp⟩ := h.kept x hx hn
    exact ⟨hc, fun bs => Stream.Sink.takes_askShutdown.trans (hp bs)⟩
  shutdown := h.shutdown

theorem shutHalf (h : Minds t b c) (ho : t ∉ c.write.line) (hc : ¬ c.Contends t) (k : AfterClose) :
    Abides t b (c.shutHalf t k) := by
  have ha := h.askShutdown
  unfold Client.shutHalf
  split
  next peer hp =>
    obtain rfl : c.peer.askShutdown.2 = peer := congrArg Prod.snd hp
    exact ha.abides ho hc
  next peer _ hp =>
    obtain rfl : c.peer.askShutdown.2 = peer := congrArg Prod.snd hp
    have hg : Minds t b { c with
        peer := c.peer.askShutdown.2
        write := { c.write with half := .gone }
        life := .closed } := ha.same rfl rfl rfl rfl rfl rfl
    exact hg.afterClose ho k

theorem toShutdown (h : Minds t b c) (k : AfterClose) : Minds t b (c.toShutdown k t) := by
  cases t with
  | reader => exact h.setReader _
  | call n => exact h.setStage _

theorem not_contends_toShutdown (c : Client) (k : AfterClose) (t : Task) :
    ¬ (c.toShutdown k t).Contends t := by
  cases t with
  | reader => nofun
  | call n => exact not_contends_setStage rfl

theorem takeHalf (h : Minds t b c) (ht : c.write.holder = some t) (k : AfterClose) :
    Abides t b (c.takeHalf t k) := by
  unfold Client.takeHalf
  split
  · have hw : Minds t b { c with write := { c.write with half := .leaving } } :=
      h.same rfl rfl rfl rfl rfl rfl
    obtain ⟨hr, ho⟩ := hw.release ht
    refine (hr.toShutdown k).shutHalf ?_ (not_contends_toShutdown _ k t) k
    cases t with
    | reader => exact ho
    | call n => exact ho
  · obtain ⟨hr, ho⟩ := h.release ht
    exact (hr.setLife .closed).afterClose ho k

/-- A task that goes for the write path to shut it down has it at once, or stands in line for it. -/
theorem lineUpToClose (h : Minds t b c) (ho : t ∉ c.write.line) (hc : c.Contends t)
    (k : AfterClose) : Abides t b (c.lineUpToClose t k) := by
  have ha := h.acquire ho
  unfold Client.lineUpToClose
  dsimp only
  split
  next hh => exact ha.takeHalf ((holds_iff _ t).1 hh) k
  next hh =>
    refine ⟨ha, iff_of_true ?_ hc, fun ht => absurd ((holds_iff _ t).2 ht) hh⟩
    rw [h.ordered.line_acquire]
    exact List.mem_append_right _ (List.mem_singleton_self t)

theorem close (h : Minds t b c) (ho : t ∉ c.write.line) (ht : t.Among c.calls.length)
    (k : AfterClose) : Abides t b (c.close t k) := by
  unfold Client.close
  split
  · have hd : Minds t b (c.toCloseLock k t).breakOff := by
      cases t with
      | reader => exact (h.setReader .closeLock).same rfl rfl rfl rfl rfl rfl
      | call n => exact (h.setStage (.closeLock k)).same rfl rfl rfl rfl rfl rfl
    have hs : (c.toCloseLock k t).breakOff.Contends t := by
      cases t with
      | reader => exact rfl
      | call n =>
        change ((c.setStage n (.closeLock k)).stage n).contends = true
        rw [stage_setStage_self ht]
        rfl
    have hq : (c.toCloseLock k t).breakOff.wakeDecided.askStop.core =
        (c.toCloseLock k t).breakOff.core := (core_askStop _).trans (core_wakeDecided _)
    refine hd.wakeDecided.askStop.lineUpToClose ?_ ?_ k
    · rw [write_eq hq]
      cases t with
      | reader => exact ho
      | call n => exact ho
    · exact (contends_core hq t).2 hs
  · exact h.afterClose ho k

/-! ### The wait for a reply -/

theorem leaveIfAny (h : Minds t b c) (waiter : Option Waiter) :
    Minds t b (c.leaveIfAny waiter) := by
  cases waiter with
  | none => exact h
  | some w =>
    refine Minds.wakeDecided ?_
    exact h.same rfl rfl rfl rfl rfl rfl

theorem write_reject (c : Client) (id : String) : (c.reject id).write = c.write := rfl

theorem conclude (h : Minds (.call n) b c) (ho : .call n ∉ c.write.line) (w : Waiter)
    (r : Except Failure Reply) : Abides (.call n) b (c.conclude n w r) := by
  have hf : Minds (.call n) b (c.forget w) := h.same rfl rfl rfl rfl rfl rfl
  cases r with
  | error e => exact hf.ends ho rfl
  | ok reply =>
    have ha := hf.record (.answered n reply)
    have hr : Minds (.call n) b (((c.forget w).record (.answered n reply)).reject w.id) :=
      ha.same rfl rfl rfl rfl rfl rfl
    unfold Client.conclude
    dsimp only
    split
    · refine hr.ends ?_ rfl
      rw [write_reject]
      exact ho
    · exact ha.ends ho rfl

theorem awaitReply (h : Minds (.call n) b c) (ho : .call n ∉ c.write.line) {w : Waiter} {due : Nat}
    (hs : c.stage n = .await w due) : Abides (.call n) b (c.awaitReply n w due) := by
  unfold Client.awaitReply
  split
  · exact ((h.clearTimer n).conclude ho w _).wakeCalls _
  · refine (h.setTimer n due).abides ?_ ?_
    · rw [write_eq (core_setTimer c n due)]
      exact ho
    · rw [contends_core (core_setTimer c n due)]
      dsimp only [Contends]
      rw [hs]
      nofun

/-! ### Sending -/

theorem failSending (h : Minds (.call n) b c) (hh : c.write.holder = some (.call n))
    (hn : n < c.calls.length) (waiter : Option Waiter) (e : Failure) :
    Abides (.call n) b (c.failSending n waiter e) := by
  obtain ⟨hl, ho⟩ := ((h.record (.unsent n e)).clearTimer n).leaveWritePath hh
  have hw := hl.leaveIfAny waiter
  have ho' : .call n ∉ ((((c.record (.unsent n e)).clearTimer n).leaveWritePath).leaveIfAny
      waiter).write.line := by
    rw [write_eq (core_leaveIfAny _ waiter), write_forgetAny]
    exact ho
  unfold Client.failSending
  dsimp only
  split
  · exact hw.close ho' ((hw.length.trans h.length.symm) ▸ hn) _
  · exact hw.finish ho' _

theorem afterSending (h : Minds (.call n) b c) (hh : c.write.holder = some (.call n))
    (hn : n < c.calls.length) (waiter : Option Waiter) :
    Abides (.call n) b (c.afterSending n waiter) := by
  obtain ⟨hl, ho⟩ := ((h.record (.sent n c.now)).clearTimer n).leaveWritePath hh
  unfold Client.afterSending
  cases waiter with
  | none => exact hl.finish ho _
  | some w =>
    exact (hl.setStage _).awaitReply ho
      (stage_setStage_self ((hl.length.trans h.length.symm) ▸ hn) _)

/-- A call that has to wait with its sending is held up by the peer. -/
theorem holdSending (h : Minds (.call n) b c) (hh : c.write.holder = some (.call n)) {s : Sending}
    (hs : c.stage n = .send s) (hp : ¬ c.peer.Takes s.rest) :
    Abides (.call n) b (c.holdSending n s) := by
  unfold Client.holdSending
  split
  · exact h.failSending hh (lt_of_stage_ne_dropped (by simp [hs])) _ _
  · have hq := core_setTimer c n s.due
    refine ⟨h.setTimer n s.due, ?_, fun _ => .inr ⟨s, (stage_eq hq n).trans hs, ?_⟩⟩
    · rw [write_eq hq, contends_core hq]
      refine iff_of_true (WritePath.mem_line_of_holder hh) ?_
      dsimp only [Contends]
      rw [hs]
      rfl
    · unfold Client.setTimer
      split
      · exact hp
      · exact hp

theorem writeOn (h : Minds (.call n) b c) (hh : c.write.holder = some (.call n))
    (hn : n < c.calls.length) (s : Sending) : Abides (.call n) b (c.writeOn n s) := by
  have hr : ∀ (peer : Stream.Sink) s', peer.onShutdown = c.peer.onShutdown →
      Minds (.call n) b ({ c with peer := peer }.sendRest n s') := fun peer s' hp => by
    refine h.of_holder hh (length_setStage _ n _) rfl rfl (fun m hm => ?_) (fun _ => rfl) hp
    exact (stage_setStage _ n m _).trans (if_neg fun hx => hm (by rw [hx.1]))
  have hs : ∀ peer s', ({ c with peer := peer }.sendRest n s').stage n = .send s' :=
    fun peer s' => stage_setStage_self hn _
  have hl : ∀ peer s', n < ({ c with peer := peer }.sendRest n s').calls.length := fun peer s' =>
    (length_setStage _ n _).symm ▸ hn
  have hp := c.peer.onShutdown_write s.rest
  have hf := c.peer.onFlush_write s.rest
  have hw := @Stream.Sink.not_takes_of_waiting c.peer s.rest
  unfold Client.writeOn
  generalize c.peer.write s.rest = w at hp hf hw
  obtain ⟨written, peer⟩ := w
  dsimp only at hp hf hw
  cases written with
  | all =>
    dsimp only
    split
    · exact (hr _ _ hp).afterSending hh (hl _ _) _
    next hx =>
      refine (hr _ _ hp).holdSending hh (hs _ _) fun ht => ?_
      have hy : peer.onFlush = .ready := ht.2
      rw [hx] at hy
      cases hy
    · exact (hr _ _ hp).failSending hh (hl _ _) _ _
  | waiting rest => exact (hr _ _ hp).holdSending hh (hs _ _) (hw rfl)
  | nothing rest => exact (hr _ _ hp).failSending hh (hl _ _) _ _
  | failed text rest => exact (hr _ _ hp).failSending hh (hl _ _) _ _

theorem sendMessage (h : Minds (.call n) b c) (hh : c.write.holder = some (.call n))
    (hn : n < c.calls.length) (waiter : Option Waiter) (m : ClientMessage) :
    Abides (.call n) b (c.sendMessage n waiter m) := by
  have hr := h.record (.sending n m)
  unfold Client.sendMessage
  dsimp only
  split
  · exact hr.failSending hh hn _ _
  · split
    · exact (hr.setStage _).writeOn hh ((length_setStage _ n _).symm ▸ hn) _
    · exact hr.failSending hh hn _ _

theorem useWritePath (h : Minds (.call n) b c) (hh : c.write.holder = some (.call n))
    (hn : n < c.calls.length) : Abides (.call n) b (c.useWritePath n) := by
  have hu : Minds (.call n) b c.useId := h.same rfl rfl rfl rfl rfl rfl
  unfold Client.useWritePath
  split
  · unfold Client.request
    split
    · obtain ⟨hl, ho⟩ := hu.leaveWritePath hh
      exact hl.finish ho _
    next w correlator _ =>
      have hk : Minds (.call n) b { c.useId with correlator := correlator } :=
        hu.same rfl rfl rfl rfl rfl rfl
      exact (hk.record (.registered n w.id)).sendMessage hh hn _ _
  · exact h.sendMessage hh hn _ _
  · obtain ⟨hl, ho⟩ := h.leaveWritePath hh
    exact hl.finish ho _

theorem goForWritePath (h : Minds (.call n) b c) (ho : .call n ∉ c.write.line)
    (hn : n < c.calls.length) : Abides (.call n) b (c.goForWritePath n) := by
  have ha := (h.acquire ho).setStage .lock
  have hl : n < ({ c with write := c.write.acquire (.call n) }.setStage n .lock).calls.length :=
    (length_setStage _ n _).symm ▸ hn
  unfold Client.goForWritePath
  dsimp only
  split
  next hh => exact ha.useWritePath ((holds_iff _ _).1 hh) hl
  next hh =>
    refine ⟨ha, iff_of_true ?_ ?_, fun ht => absurd ((holds_iff _ _).2 ht) hh⟩
    · change _ ∈ (c.write.acquire (.call n)).line
      rw [h.ordered.line_acquire]
      exact List.mem_append_right _ (List.mem_singleton_self _)
    · have hs : ({ c with write := c.write.acquire (.call n) }.setStage n .lock).stage n = .lock :=
        stage_setStage_self hn _
      dsimp only [Contends]
      rw [hs]
      rfl

/-! ### The reader -/

theorem resolve (h : Minds t b c) (id : String) (isError : Bool) (reply : Reply) :
    Minds t b (c.resolve id isError reply) := by
  unfold Client.resolve
  split
  · exact h
  · refine Minds.wakeDecided ?_
    exact h.same rfl rfl rfl rfl rfl rfl

theorem route (h : Minds t b c) (f : Frame) : Minds t b (c.route f) := by
  have hr := h.record (.routed f)
  unfold Client.route Client.routePayload
  dsimp only
  split
  · exact hr
  · split
    · exact hr
    · split
      · exact hr
      · split
        · split
          · unfold Client.dispatch
            split
            · exact hr.record _
            · exact hr
          · exact hr
        · exact hr.resolve _ _ _

theorem closeReader (h : Minds .reader b c) (ho : .reader ∉ c.write.line) :
    Abides .reader b c.closeReader := h.close ho trivial _

theorem readFrames (h : Minds .reader b c) (ho : .reader ∉ c.write.line) (fuel : Nat)
    (buffer : Frame.Buffer) : Abides .reader b (c.readFrames fuel buffer) := by
  have hs : ∀ {d : Client} source, Minds .reader b d →
      Minds .reader b { d with source := source } := fun _ hd => hd.same rfl rfl rfl rfl rfl rfl
  induction fuel generalizing c buffer with
  | zero => exact (h.setReader (.reading buffer)).abides ho nofun
  | succ fuel ih =>
    unfold Client.readFrames
    split
    next f buffer' source _ =>
      split
      · have hw : ({ c with source := source }.route f).write = c.write :=
          (write_eq (core_route { c with source := source } f)).trans (write_routed _ f)
        refine ih ((hs source h).route f) ?_ _
        rw [hw]
        exact ho
      · exact (hs _ h).endReader ho
    next buffer' source _ =>
      have hr := hs source (h.setReader (.reading buffer'))
      exact hr.abides ho nofun
    next source _ _ _ =>
      split
      · exact (hs source h).closeReader ho
      · exact (hs source h).endReader ho

theorem runReader (h : Minds .reader b c) (hm : .reader ∈ c.write.line ↔ c.Contends .reader) :
    Abides .reader b c.runReader := by
  have hr : ∀ {r}, c.reader = r → r ≠ .closeLock → .reader ∉ c.write.line := fun hr hx hl =>
    hx (hr.symm.trans (hm.1 hl))
  unfold Client.runReader
  split
  next buffer he =>
    have ho := hr he nofun
    split
    · have hs : Minds .reader b { c with stopAsked := false } := h.same rfl rfl rfl rfl rfl rfl
      dsimp only
      split
      · exact hs.closeReader ho
      · exact hs.endReader ho
    · exact h.readFrames ho _ _
  next he =>
    split
    next hh => exact h.takeHalf ((holds_iff c _).1 hh) _
    next hh => exact ⟨h, hm, fun ht => absurd ((holds_iff c _).2 ht) hh⟩
  next he => exact h.shutHalf (hr he nofun) (fun hx => by cases he.symm.trans hx) _
  next he => exact h.abides (hr he nofun) fun hx => by cases he.symm.trans hx
  next he => exact h.abides (hr he nofun) fun hx => by cases he.symm.trans hx

/-! ### Calls -/

theorem finishEarly (h : Minds (.call n) b c) (hl : c.write.line = [])
    (r : Except Failure Outcome) : Abides (.call n) b (c.finish n r) :=
  h.finish (by rw [hl]; nofun) r

theorem dropStream (h : Minds (.call n) b c) (hl : c.write.line = []) :
    Minds (.call n) b c.dropStream := h.of_nobody hl rfl rfl rfl (fun _ _ => rfl) nofun rfl

theorem runHandshake (h : Minds (.call n) b c) (hl : c.write.line = []) (e : Handshake.Exchange)
    (due : Nat) : Abides (.call n) b (c.runHandshake n e due) := by
  have hr : c.reader ≠ .closeLock := fun hr => by
    have hx := (h.mem .reader nofun).2 hr
    rw [hl] at hx
    cases hx
  have hp := e.onShutdown_run c.source c.peer
  have hd : ∀ source peer, peer.onShutdown = c.peer.onShutdown →
      Minds (.call n) b { c with source := source, peer := peer } := fun source peer hp =>
    h.of_nobody hl rfl rfl rfl (fun _ _ => rfl) hr hp
  unfold Client.runHandshake
  split
  next session source peer hx =>
    rw [hx] at hp
    have ha : Minds (.call n) b ({ c with source := source, peer := peer }.accept session) :=
      (hd source peer hp).of_nobody hl rfl rfl rfl (fun _ _ => rfl) nofun rfl
    refine (ha.wake .reader).finishEarly ?_ _
    rw [write_eq (core_wake _ _)]
    exact hl
  next e source peer hx =>
    rw [hx] at hp
    exact ((hd source peer hp).dropStream hl).finishEarly hl _
  next e source peer hx =>
    rw [hx] at hp
    dsimp only
    split
    · exact ((hd source peer hp).dropStream hl).finishEarly hl _
    · refine ((hd source peer hp).setTimer n due).ends ?_ rfl
      rw [write_eq (core_setTimer _ _ _)]
      change _ ∉ c.write.line
      rw [hl]
      nofun

theorem shakeHands (h : Minds (.call n) b c) (hl : c.write.line = [])
    (first : Except Failure (List UInt8)) : Abides (.call n) b (c.shakeHands n first) := by
  cases first with
  | error e => exact (h.dropStream hl).finishEarly hl _
  | ok bytes =>
    have hu : Minds (.call n) b { c with write := { c.write with half := .unsplit } } :=
      h.same rfl rfl rfl rfl rfl rfl
    exact (hu.setStage _).runHandshake hl _ _

theorem startOperation (h : Minds (.call n) b c) (ho : .call n ∉ c.write.line)
    (hn : n < c.calls.length) (op : Operation) : Abides (.call n) b (c.startOperation n op) := by
  unfold Client.startOperation
  split
  · exact h.finish ho _
  · split
    · exact h.goForWritePath ho hn
    · exact h.finish ho _

theorem startUnsubscribe (h : Minds (.call n) b c) (ho : .call n ∉ c.write.line)
    (hn : n < c.calls.length) (id : String) : Abides (.call n) b (c.startUnsubscribe n id) := by
  unfold Client.startUnsubscribe
  split
  · have hr : Minds (.call n) b
        { c.record (.unsubscribed id) with routes := (c.routes.unsubscribe id).2 } :=
      h.same rfl rfl rfl rfl rfl rfl
    dsimp only
    split
    · exact hr.goForWritePath ho hn
    · exact hr.finish ho _
  · exact h.finish ho _

theorem line_eq_nil (h : Minds t b c) (hm : t ∈ c.write.line ↔ c.Contends t) (hg : Guarded c)
    (hx : Sealed c) (hu : c.write.half = .unused ∨ c.write.half = .unsplit) :
    c.write.line = [] := by
  have hl : c.life = .unconnected := by
    by_contra hl
    exact (hx.begun hl).1 (hg.young hu)
  have hc : ∀ x, ¬ c.Contends x := by
    rintro (_ | m) hc
    · have hp := hx.reader (.inl hc)
      exact hp.ne_unconnected hl
    · have hf := hx.fits m
      dsimp only [Contends] at hc
      cases hs : c.stage m with
      | lock =>
        rw [hs] at hf
        exact hf hl
      | closeLock k =>
        rw [hs] at hf
        exact hf.ne_unconnected hl
      | send s =>
        rw [hg.half_of_send hs] at hu
        rcases hu with hu | hu <;> cases hu
      | _ =>
        rw [hs] at hc
        cases hc
  refine List.eq_nil_iff_forall_not_mem.2 fun x hn => hc x ?_
  by_cases ht : t = x
  · exact ht ▸ hm.1 (ht ▸ hn)
  · exact (h.mem x ht).1 hn

theorem runCall (h : Minds (.call n) b c) (hm : .call n ∈ c.write.line ↔ c.Contends (.call n))
    (hg : Guarded c) (hx : Sealed c) : Abides (.call n) b (c.runCall n) := by
  have hn : ∀ {s}, c.stage n = s → s ≠ .dropped → n < c.calls.length := fun hs hd =>
    lt_of_stage_ne_dropped (hs ▸ hd)
  have hc : ∀ {s}, c.stage n = s → s.contends = false → ¬ c.Contends (.call n) := fun hs hd hx => by
    dsimp only [Contends] at hx
    rw [hs, hd] at hx
    cases hx
  have ho : ∀ {s}, c.stage n = s → s.contends = false → .call n ∉ c.write.line := fun hs hd hl =>
    hc hs hd (hm.1 hl)
  unfold Client.runCall
  split
  next hs =>
    have hf := ho hs rfl
    have hn := hn hs nofun
    split
    · split
      next hu => exact h.shakeHands (h.line_eq_nil hm hg hx (.inl hu)) _
      next => exact h.finish hf _
    · exact h.startOperation hf hn _
    · exact h.startUnsubscribe hf hn _
    · exact h.finish hf _
    · exact h.close hf hn _
  next e due hs =>
    have hu := hg.half_of_handshake hs
    exact h.runHandshake (h.line_eq_nil hm hg hx (.inr hu)) e due
  next hs =>
    split
    next hh => exact h.useWritePath ((holds_iff c _).1 hh) (hn hs nofun)
    next hh => exact ⟨h, hm, fun ht => absurd ((holds_iff c _).2 ht) hh⟩
  next s hs => exact h.writeOn (hg.sender hs).1 (hn hs nofun) s
  next w due hs => exact h.awaitReply (ho hs rfl) hs
  next k hs =>
    split
    next hh => exact h.takeHalf ((holds_iff c _).1 hh) k
    next hh => exact ⟨h, hm, fun ht => absurd ((holds_iff c _).2 ht) hh⟩
  next k hs => exact h.shutHalf (ho hs rfl) (hc hs rfl) k
  next hs =>
    split
    · exact h.finish (ho hs rfl) _
    · exact h.abides (ho hs rfl) (hc hs rfl)
  next hs => exact h.abides (ho hs rfl) (hc hs rfl)
  next hs => exact h.abides (ho hs rfl) (hc hs rfl)

end Minds

theorem Lined.erase (h : Lined c) (t : Task) : Minds t c { c with ready := c.ready.erase t } :=
  { h.minds t with
    woken := fun x hx hn =>
      (h.woken x hn).imp_left fun hr => (List.mem_erase_of_ne (Ne.symm hx)).2 hr }

/-- **A turn leaves the line in order**, and leaves whoever else has the write path as he was. -/
theorem Lined.turn (h : Lined c) (hg : Guarded c) (hx : Sealed c) (t : Task) :
    Abides t c (c.turn t) := by
  have hq : c.Move { c with ready := c.ready.erase t } := .quiet rfl
  cases t with
  | reader => exact (h.erase .reader).runReader (h.mem .reader)
  | call n => exact (h.erase (.call n)).runCall (h.mem (.call n)) (hg.move hq) (hx.move hq hg)

theorem Lined.overlook (h : Lined c) (count : Nat) : Abides .reader c (c.overlook count) := by
  have hr := h.minds .reader
  unfold Client.overlook
  split
  next buffer he =>
    refine hr.readFrames (fun hl => ?_) count buffer
    cases he.symm.trans ((h.mem .reader).1 hl)
  · exact ⟨hr, h.mem .reader, h.woken .reader⟩

/-! ### What happens from outside -/

theorem Minds.cancelCall (h : Minds (.call n) b c)
    (hm : .call n ∈ c.write.line ↔ c.Contends (.call n))
    (ha : c.write.holder = some (.call n) → .call n ∈ c.ready ∨ c.Stalled (.call n))
    (hg : Guarded c) (hx : Sealed c) : Abides (.call n) b (c.cancelCall n) := by
  have hd : Minds (.call n) b ((c.clearTimer n).setStage n .dropped) := (h.clearTimer n).setStage _
  have hn : ∀ {d : Client}, d.calls = ((c.clearTimer n).setStage n .dropped).calls →
      ¬ d.Contends (.call n) := fun {d} hq => by
    have hs : d.stage n = ((c.clearTimer n).setStage n .dropped).stage n := stage_congr hq n
    dsimp only [Contends]
    rw [hs]
    exact not_contends_setStage rfl
  have ho : ∀ {s}, c.stage n = s → s.contends = false → .call n ∉ c.write.line :=
    fun hs hf hl => by
      have hx := hm.1 hl
      dsimp only [Contends] at hx
      rw [hs, hf] at hx
      cases hx
  unfold Client.cancelCall
  dsimp only
  split
  next e due hs =>
    have hl := h.line_eq_nil hm hg hx (.inr (hg.half_of_handshake hs))
    exact (hd.dropStream hl).abides (ho hs rfl) (hn rfl)
  next =>
    obtain ⟨hw, hl⟩ := hd.withdraw
    exact hw.abides hl (hn ((calls_eq (core_withdraw _ _)).trans rfl))
  next =>
    obtain ⟨hw, hl⟩ := hd.withdraw
    exact hw.abides hl (hn ((calls_eq (core_withdraw _ _)).trans rfl))
  next s hs =>
    have hh : (((c.clearTimer n).setStage n .dropped).leaveIfAny s.waiter).write.holder =
        some (.call n) := by
      rw [write_eq (core_leaveIfAny _ _), write_forgetAny]
      exact (hg.sender hs).1
    obtain ⟨hw, hl⟩ := (hd.leaveIfAny s.waiter).leaveWritePath hh
    refine hw.abides hl (hn ((calls_eq (core_leaveWritePath _)).trans ?_))
    exact (calls_eq (core_yield (core_leaveIfAny _ s.waiter))).trans (calls_forgetAny _ _)
  next w due hs =>
    refine (hd.leaveIfAny (some w)).abides ?_ (hn ((calls_eq (core_leave _ w)).trans rfl))
    rw [write_eq (core_leaveIfAny _ _), write_forgetAny]
    exact ho hs rfl
  next hs =>
    have hw : Minds (.call n) b { (c.clearTimer n).setStage n .dropped with
        write := { c.write with half := .gone } } := hd.same rfl rfl rfl rfl rfl rfl
    exact hw.abides (ho hs rfl) (hn rfl)
  next hs => exact hd.abides (ho hs rfl) (hn rfl)
  next hs => exact hd.abides (ho hs rfl) (hn rfl)
  next => exact ⟨h, hm, ha⟩
  next => exact ⟨h, hm, ha⟩

namespace Lined

theorem cancelCall (h : Lined c) (hg : Guarded c) (hx : Sealed c) (n : Nat) :
    Lined (c.cancelCall n) :=
  ((h.minds _).cancelCall (h.mem _) (h.woken _) hg hx).lined

theorem of_eq (h : Lined c) (hc : c'.calls = c.calls) (hh : c'.write.holder = c.write.holder)
    (hq : c'.write.queue = c.write.queue) (hd : c'.reader = c.reader)
    (hr : ∀ x ∈ c.ready, x ∈ c'.ready) (hp : c'.peer = c.peer) : Lined c' :=
  (Abides.of_eq ⟨h.minds .reader, h.mem .reader, h.woken .reader⟩ hc hh hq hd hr hp).lined

theorem wake (h : Lined c) (t : Task) : Lined (c.wake t) := by
  have hr : ∀ x ∈ c.ready, x ∈ (c.wake t).ready := fun _ hx => (mem_wake c t).2 (.inl hx)
  obtain ⟨l, hl⟩ := exists_ready_wake c t
  rw [hl] at hr ⊢
  exact h.of_eq rfl rfl rfl rfl hr rfl

theorem wakeCalls (h : Lined c) (p : Stage → Bool) : Lined (c.wakeCalls p) := by
  have hr : ∀ x ∈ c.ready, x ∈ (c.wakeCalls p).ready := ((Tends.refl .reader c).wakeCalls p).ready
  obtain ⟨l, hl⟩ := exists_ready_wakeCalls c p
  rw [hl] at hr ⊢
  exact h.of_eq rfl rfl rfl rfl hr rfl

theorem askStop (h : Lined c) : Lined c.askStop := by
  have hs : Lined { c with stopAsked := true } := h.of_eq rfl rfl rfl rfl (fun _ => id) rfl
  exact hs.wake .reader

theorem addCall (h : Lined c) (job : Job) : Lined (c.addCall job) := by
  have hd : ∀ {m}, ¬ m < c.calls.length → c.stage m = .dropped := fun hm => by
    by_contra hx
    exact hm (lt_of_stage_ne_dropped hx)
  refine ⟨h.ordered, fun x => (h.mem x).trans ?_, fun x hn => (h.woken x hn).imp_right fun hx => ?_⟩
  · cases x with
    | reader => exact .rfl
    | call m =>
      dsimp only [Contends]
      by_cases hm : m < c.calls.length
      · rw [stage_addCall_of_lt hm]
      · rcases stage_addCall c job m with hs | hs
        · rw [hs]
        · rw [hs, hd hm]
          exact .rfl
  · cases x with
    | reader => exact hx
    | call m =>
      obtain ⟨s, hx, hp⟩ := hx
      refine ⟨s, ?_, hp⟩
      rw [stage_addCall_of_lt (lt_of_stage_ne_dropped (by simp [hx]))]
      exact hx

theorem change {count : Nat} (h : Lined c) (ho : c.Orderly count) (d : Stream.SinkChange) :
    Lined ({ c with peer := c.peer.change d }.wakeWriters) := by
  have hp : { c with peer := c.peer.change d }.Orderly count := ho.of_eq rfl rfl rfl fun _ => id
  obtain ⟨-, hr, hw⟩ := hp.wakeCalls Stage.waitsForPeer
  have hl : Lined ({ c with peer := c.peer.change d }.wakeCalls Stage.waitsForPeer) := by
    obtain ⟨l, hq⟩ := exists_ready_wakeCalls { c with peer := c.peer.change d } Stage.waitsForPeer
    rw [hq] at hr hw ⊢
    refine ⟨h.ordered, h.mem, fun x hn => .inl ?_⟩
    rcases h.woken x hn with hx | hx
    · exact hr x hx
    · cases x with
      | reader => exact hx.elim
      | call m =>
        obtain ⟨s, hs, -⟩ := hx
        refine hw m (ho.length ▸ lt_of_stage_ne_dropped (by simp [hs])) ?_
        change (c.stage m).waitsForPeer = true
        rw [hs]
        rfl
  unfold Client.wakeWriters
  dsimp only
  split
  · exact hl.wake _
  · exact hl

theorem fireTimers (h : Lined c) : Lined c.fireTimers := by
  have hf : ∀ (l : List Timer) (c : Client), Lined c →
      Lined (l.foldl (fun c t => c.wake (.call t.call)) c) := by
    intro l
    induction l with
    | nil => exact fun _ h => h
    | cons t l ih => exact fun c h => ih _ (h.wake _)
  unfold Client.fireTimers
  exact hf _ _ (h.of_eq rfl rfl rfl rfl (fun _ => id) rfl)

theorem letGo (h : Lined c) : Lined c.letGo := by
  have hh : Lined { c with held := false } := h.of_eq rfl rfl rfl rfl (fun _ => id) rfl
  have ha := hh.askStop
  unfold Client.letGo
  split
  · dsimp only
    split
    · exact ha
    · exact ha.of_eq rfl (WritePath.holder_dropHalf _) (WritePath.queue_dropHalf _) rfl
        (fun _ => id) rfl
  · exact h

theorem act (h : Lined c) {count : Nat} (ho : c.Orderly count) (hg : Guarded c) (hx : Sealed c)
    (a : Action) : Lined (c.act a) := by
  cases a with
  | start job => exact (h.addCall job).wake _
  | cancel n => exact h.cancelCall hg hx n
  | feed more =>
    have hf : Lined { c with source := c.source.feed more } :=
      h.of_eq rfl rfl rfl rfl (fun _ => id) rfl
    unfold Client.act wakeReaders
    dsimp only
    split
    · exact (hf.wakeCalls _).wake _
    · exact hf.wakeCalls _
  | change d => exact h.change ho d
  | advance millis =>
    have hn : Lined { c with now := c.now + millis } :=
      h.of_eq rfl rfl rfl rfl (fun _ => id) rfl
    exact hn.fireTimers
  | part =>
    unfold Client.act Client.takeLeave
    dsimp only
    split
    · exact h.askStop
    · exact h
  | drop =>
    have hl : ∀ (l : List Nat) (d : Client), Lined d → Guarded d → Sealed d →
        Lined (l.foldl Client.cancelCall d) := by
      intro l
      induction l with
      | nil => exact fun _ h _ _ => h
      | cons n l ih =>
        intro d h hg hx
        obtain ⟨hg', hx'⟩ := (moves_cancelCall d n).induct (P := fun c => Guarded c ∧ Sealed c)
          (fun hm h => ⟨h.1.move hm, h.2.move hm h.1⟩) ⟨hg, hx⟩
        exact ih _ (h.cancelCall hg hx n) hg' hx'
    exact (hl _ _ h hg hx).letGo

theorem initial (config : Config) : Lined (Client.initial config) := by
  refine ⟨⟨fun _ => rfl, List.nodup_nil⟩, ?_, nofun⟩
  rintro (_ | m) <;> exact iff_of_false nofun nofun

end Lined

/-- **Whoever has the write path is about to go on, or is held up by the peer**, whichever way the
tasks take their turns. -/
theorem Possible.lined {config : Config} (h : Possible config c) : Lined c := by
  induction h with
  | refl => exact .initial config
  | tail hp hg ih =>
    have hp : Possible config _ := hp
    cases hg with
    | follows hf =>
      cases hf with
      | act a => exact ih.act hp.alert.toOrderly hp.guarded hp.sealed a
      | turn t => exact (ih.turn hp.guarded hp.sealed t).lined
    | overlook count => exact (ih.overlook count).lined

/-- **Once all tasks wait, nobody has the write path but for those whom the peer holds up.** -/
theorem Lined.stalled (h : Lined c) (hr : c.ready = []) (hc : c.Contends t) : ∃ x, c.Stalled x := by
  have hl := (h.mem t).2 hc
  cases hh : c.write.holder with
  | none =>
    unfold WritePath.line at hl
    rw [hh, h.ordered.free hh] at hl
    cases hl
  | some x =>
    refine ⟨x, (h.woken x hh).resolve_left ?_⟩
    rw [hr]
    nofun

end DocWire.Client
