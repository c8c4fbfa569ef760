import DocWire.Proofs.Client.Alert
import DocWire.Proofs.Correlator.Operations

/-! # Turns leave nobody asleep

Every function that a turn or an action runs through keeps the lines of tasks orderly, and wakes the
calls whose mailboxes it decides. -/

namespace DocWire.Client

open DocWire.Correlator (Waiter Slot)

variable {c c' : Client} {count n : Nat} {t : Task} {k : AfterClose}

/-! ### Closing -/

theorem Alert.endReader (h : c.Alert count none) : c.endReader.Alert count none := by
  unfold Client.endReader
  have hr : { c with reader := .ended }.Alert count none := h.of_eq rfl rfl rfl (fun _ => id) rfl
  refine Alert.wakeCalls ?_ _
  split
  · exact hr
  · refine hr.handOn fun x hx => ?_
    rw [WritePath.queue_dropHalf] at hx
    exact hx

theorem Alert.joinReader (h : c.Alert count none) (n : Nat) :
    (c.joinReader n).Alert count none := by
  have hj : { c with joinable := false }.Alert count none := h.of_eq rfl rfl rfl (fun _ => id) rfl
  unfold Client.joinReader
  split
  · dsimp only
    split
    · exact hj.finish n _
    · exact hj.setStage nofun
  · exact h.finish n _

theorem Alert.afterClose (h : c.Alert count none) (t : Task) (k : AfterClose) :
    (c.afterClose t k).Alert count none := by
  cases t with
  | reader => exact h.endReader
  | call n =>
    cases k with
    | finish r => exact h.finish n r
    | join => exact h.joinReader n

theorem Alert.shutHalf (h : c.Alert count none) (t : Task) (k : AfterClose) :
    (c.shutHalf t k).Alert count none := by
  unfold Client.shutHalf Stream.Sink.askShutdown
  split
  · exact h.of_eq rfl rfl rfl (fun _ => id) rfl
  · refine Alert.afterClose ?_ t k
    exact h.of_eq rfl rfl rfl (fun _ => id) rfl

theorem Alert.toShutdown (h : c.Alert count none) (k : AfterClose) (t : Task) :
    (c.toShutdown k t).Alert count none := by
  cases t with
  | reader => exact h.of_eq rfl rfl rfl (fun _ => id) rfl
  | call n => exact h.setStage nofun

theorem Alert.takeHalf (h : c.Alert count none) (t : Task) (k : AfterClose) :
    (c.takeHalf t k).Alert count none := by
  unfold Client.takeHalf
  split
  · have hl : { c with write := { c.write with half := .leaving } }.Alert count none :=
      h.handOn fun _ => id
    exact (hl.release.toShutdown k t).shutHalf t k
  · refine Alert.afterClose ?_ t k
    exact h.release.of_eq rfl rfl rfl (fun _ => id) rfl

theorem Alert.lineUpToClose (h : c.Alert count none) (ht : t.Among count) :
    (c.lineUpToClose t k).Alert count none := by
  unfold Client.lineUpToClose
  dsimp only
  split
  · exact (h.acquire ht).takeHalf t k
  · exact h.acquire ht

theorem Alert.toCloseLock (h : c.Alert count none) (k : AfterClose) (t : Task) :
    (c.toCloseLock k t).Alert count none := by
  cases t with
  | reader => exact h.of_eq rfl rfl rfl (fun _ => id) rfl
  | call n => exact h.setStage nofun

theorem Alert.askStop (h : c.Alert count none) : c.askStop.Alert count none := by
  have hs : { c with stopAsked := true }.Alert count none :=
    h.of_eq rfl rfl rfl (fun _ => id) rfl
  exact hs.wake trivial

/-- Closing decides all mailboxes that are vacant, and wakes whoever waits for them. -/
theorem Alert.breakOff (h : c.Alert count none) (ht : t.Among count) :
    (c.breakOff.wakeDecided.askStop.lineUpToClose t k).Alert count none := by
  have hb : c.breakOff.Orderly count := h.toOrderly.of_eq rfl rfl rfl fun _ => id
  exact hb.wakeDecided.askStop.lineUpToClose ht

theorem Alert.close (h : c.Alert count none) (ht : t.Among count) :
    (c.close t k).Alert count none := by
  unfold Client.close
  split
  · exact (h.toCloseLock k t).breakOff ht
  · exact h.afterClose t k

/-! ### The wait for a reply -/

theorem Orderly.forget (h : c.Orderly count) (w : Waiter) : (c.forget w).Orderly count :=
  h.of_eq rfl rfl rfl fun _ => id

theorem Alert.leaveIfAny (h : c.Alert count none) (waiter : Option Waiter) :
    (c.leaveIfAny waiter).Alert count none := by
  cases waiter with
  | none => exact h
  | some w => exact (h.toOrderly.forget w).wakeDecided

theorem Orderly.conclude (h : c.Orderly count) (n : Nat) (w : Waiter) (r : Except Failure Reply) :
    (c.conclude n w r).Orderly count := by
  unfold Client.conclude
  split
  · exact (h.forget w).setStage n _
  next reply =>
    have ha : ((c.forget w).record (.answered n reply)).Orderly count :=
      (h.forget w).of_eq rfl rfl rfl fun _ => id
    dsimp only
    split
    · refine Orderly.setStage ?_ n _
      exact ha.of_eq rfl rfl rfl fun _ => id
    · exact ha.setStage n _

/-- The call that takes its turn need not be left out any more: either its wait is over, or its
mailbox is vacant. -/
theorem Alert.awaitReply (h : c.Alert count (some n)) {w : Waiter} {due : Nat}
    (hs : c.stage n = .await w due) : (c.awaitReply n w due).Alert count none := by
  have hn : n < count := h.length ▸ lt_of_stage_ne_dropped (by simp [hs])
  unfold Client.awaitReply
  split
  next r hr => exact ((h.toOrderly.clearTimer n).conclude n w r).wakeDecided
  next hr =>
    have hv := (Correlator.outcome?_eq_none hr).1
    refine Alert.setTimer ⟨h.toOrderly, fun m w' due' _ hm hb => ?_⟩ hn due
    by_cases hmn : m = n
    · subst hmn
      rw [hs] at hm
      cases hm
      exact absurd hv hb
    · exact h.woken m w' due' (fun hx => hmn (Option.some.inj hx).symm) hm hb

/-! ### Sending -/

theorem Alert.failSending (h : c.Alert count none) (hn : n < count) (waiter : Option Waiter)
    (e : Failure) : (c.failSending n waiter e).Alert count none := by
  have hl := (((h.record (.unsent n e)).clearTimer n).leaveWritePath).leaveIfAny waiter
  unfold Client.failSending
  dsimp only
  split
  · exact hl.close hn
  · exact hl.finish n _

theorem Alert.afterSending (h : c.Alert count none) (hn : n < count) (waiter : Option Waiter) :
    (c.afterSending n waiter).Alert count none := by
  have hl := ((h.record (.sent n c.now)).clearTimer n).leaveWritePath
  unfold Client.afterSending
  cases waiter with
  | none => exact hl.finish n _
  | some w => exact (hl.toAwait w _).awaitReply (stage_setStage_self (hl.length ▸ hn) _)

theorem Alert.holdSending (h : c.Alert count none) (hn : n < count) (s : Sending) :
    (c.holdSending n s).Alert count none := by
  unfold Client.holdSending
  split
  · exact h.failSending hn _ _
  · exact h.setTimer hn _

theorem Alert.sendRest (h : c.Alert count none) (n : Nat) (s : Sending) :
    (c.sendRest n s).Alert count none := by
  refine Alert.setStage ?_ nofun
  exact h.handOn fun _ => id

theorem Alert.writeOn (h : c.Alert count none) (hn : n < count) (s : Sending) :
    (c.writeOn n s).Alert count none := by
  have hr : ∀ peer s, ({ c with peer := peer }.sendRest n s).Alert count none := by
    intro peer s
    refine Alert.sendRest ?_ n s
    exact h.of_eq rfl rfl rfl (fun _ => id) rfl
  unfold Client.writeOn
  generalize c.peer.write s.rest = w
  obtain ⟨written, peer⟩ := w
  cases written with
  | all =>
    dsimp only
    split
    · exact (hr _ _).afterSending hn _
    · exact (hr _ _).holdSending hn _
    · exact (hr _ _).failSending hn _ _
  | waiting rest => exact (hr _ _).holdSending hn _
  | nothing rest => exact (hr _ _).failSending hn _ _
  | failed text rest => exact (hr _ _).failSending hn _ _

theorem Alert.sendMessage (h : c.Alert count none) (hn : n < count) (waiter : Option Waiter)
    (m : ClientMessage) : (c.sendMessage n waiter m).Alert count none := by
  have hr := h.record (.sending n m)
  unfold Client.sendMessage
  dsimp only
  split
  · exact hr.failSending hn _ _
  · split
    · exact (hr.setStage (s := .send _) nofun).writeOn hn _
    · exact hr.failSending hn _ _

theorem Alert.request (h : c.Alert count none) (hn : n < count) (op : Operation) :
    (c.request n op).Alert count none := by
  have hu : c.useId.Alert count none := h.handOn fun _ => id
  unfold Client.request
  split
  · exact hu.leaveWritePath.finish n _
  next w correlator hr =>
    refine Alert.sendMessage ?_ hn _ _
    refine ⟨hu.toOrderly.of_eq rfl rfl rfl fun _ => id, fun m w' due hb hs hm => ?_⟩
    refine h.woken m w' due hb hs fun hv => hm ?_
    have hx := Correlator.mailbox_register hr w'.ticket
    rw [hv, ite_self] at hx
    exact hx

theorem Alert.useWritePath (h : c.Alert count none) (hn : n < count) :
    (c.useWritePath n).Alert count none := by
  unfold Client.useWritePath
  split
  · exact h.request hn _
  · exact h.sendMessage hn _ _
  · exact h.leaveWritePath.finish n _

theorem Alert.goForWritePath (h : c.Alert count none) (hn : n < count) :
    (c.goForWritePath n).Alert count none := by
  have ha := (h.acquire (t := .call n) hn).setStage (n := n) (s := .lock) nofun
  unfold Client.goForWritePath
  dsimp only
  split
  · exact ha.useWritePath hn
  · exact ha

/-! ### The reader -/

theorem Alert.resolve (h : c.Alert count none) (id : String) (isError : Bool) (reply : Reply) :
    (c.resolve id isError reply).Alert count none := by
  unfold Client.resolve
  split
  · exact h
  · refine Orderly.wakeDecided ?_
    exact h.toOrderly.of_eq rfl rfl rfl fun _ ht => ht

theorem Alert.route (h : c.Alert count none) (f : Frame) : (c.route f).Alert count none := by
  have hr := h.record (.routed f)
  unfold Client.route Client.routePayload
  dsimp only
  split
  · exact hr
  · split
    · exact hr
    · split
      · exact hr
      · split
        · split
          · unfold Client.dispatch
            split
            · exact hr.record _
            · exact hr
          · exact hr
        · exact hr.resolve _ _ _

theorem Alert.closeReader (h : c.Alert count none) : c.closeReader.Alert count none :=
  h.close (t := .reader) trivial

theorem Alert.readFrames (h : c.Alert count none) (fuel : Nat) (b : Frame.Buffer) :
    (c.readFrames fuel b).Alert count none := by
  induction fuel generalizing c b with
  | zero => exact h.of_eq rfl rfl rfl (fun _ => id) rfl
  | succ fuel ih =>
    have hs : ∀ source, { c with source := source }.Alert count none := fun source =>
      h.of_eq rfl rfl rfl (fun _ => id) rfl
    unfold Client.readFrames
    split
    · split
      · exact ih ((hs _).route _) _
      · exact (hs _).endReader
    · exact h.of_eq rfl rfl rfl (fun _ => id) rfl
    · split
      · exact (hs _).closeReader
      · exact (hs _).endReader

theorem Alert.runReader (h : c.Alert count none) : c.runReader.Alert count none := by
  unfold Client.runReader
  split
  · split
    · have hs : { c with stopAsked := false }.Alert count none :=
        h.of_eq rfl rfl rfl (fun _ => id) rfl
      dsimp only
      split
      · exact hs.closeReader
      · exact hs.endReader
    · exact h.readFrames _ _
  · split
    · exact h.takeHalf _ _
    · exact h
  · exact h.shutHalf _ _
  · exact h
  · exact h

/-! ### Calls -/

theorem Alert.dropStream (h : c.Alert count none) : c.dropStream.Alert count none :=
  h.of_eq rfl rfl rfl (fun _ => id) rfl

theorem Alert.runHandshake (h : c.Alert count none) (hn : n < count) (e : Handshake.Exchange)
    (due : Nat) : (c.runHandshake n e due).Alert count none := by
  have hs : ∀ source peer, { c with source := source, peer := peer }.Alert count none :=
    fun _ _ => h.of_eq rfl rfl rfl (fun _ => id) rfl
  unfold Client.runHandshake
  split
  next session source peer _ =>
    have ha : ({ c with source := source, peer := peer }.accept session).Alert count none :=
      h.of_eq rfl rfl rfl (fun _ => id) rfl
    exact (ha.wake (t := .reader) trivial).finish n _
  · exact (hs _ _).dropStream.finish n _
  · dsimp only
    split
    · exact (hs _ _).dropStream.finish n _
    · exact ((hs _ _).setTimer hn _).setStage nofun

theorem Alert.shakeHands (h : c.Alert count none) (hn : n < count)
    (first : Except Failure (List UInt8)) : (c.shakeHands n first).Alert count none := by
  cases first with
  | error e => exact h.dropStream.finish n _
  | ok bytes =>
    refine Alert.runHandshake ?_ hn _ _
    have hu : { c with write := { c.write with half := .unsplit } }.Alert count none :=
      h.handOn fun _ => id
    exact hu.setStage nofun

theorem Alert.startOperation (h : c.Alert count none) (hn : n < count) (op : Operation) :
    (c.startOperation n op).Alert count none := by
  unfold Client.startOperation
  split
  · exact h.finish n _
  · split
    · exact h.goForWritePath hn
    · exact h.finish n _

theorem Alert.startUnsubscribe (h : c.Alert count none) (hn : n < count) (id : String) :
    (c.startUnsubscribe n id).Alert count none := by
  unfold Client.startUnsubscribe
  split
  · have hu : { c.record (.unsubscribed id) with
        routes := (c.routes.unsubscribe id).2 }.Alert count none :=
      h.of_eq rfl rfl rfl (fun _ ht => ht) rfl
    dsimp only
    split
    · exact hu.goForWritePath hn
    · exact hu.finish n _
  · exact h.finish n _

theorem Alert.runCall (h : c.Alert count (some n)) : (c.runCall n).Alert count none := by
  have hr : ∀ {s}, c.stage n = s → (∀ w due, s ≠ .await w due) → c.Alert count none :=
    fun hs ha => h.rested fun w due => hs ▸ ha w due
  have hn : ∀ {s}, c.stage n = s → s ≠ .dropped → n < count := fun hs hd =>
    h.length ▸ lt_of_stage_ne_dropped (hs ▸ hd)
  unfold Client.runCall
  split
  next hs =>
    have hf := hr hs nofun
    have hn := hn hs nofun
    split
    · split
      · exact hf.shakeHands hn _
      · exact hf.finish n _
    · exact hf.startOperation hn _
    · exact hf.startUnsubscribe hn _
    · exact hf.finish n _
    · exact hf.close hn
  next hs => exact (hr hs nofun).runHandshake (hn hs nofun) _ _
  next hs =>
    split
    · exact (hr hs nofun).useWritePath (hn hs nofun)
    · exact hr hs nofun
  next hs => exact (hr hs nofun).writeOn (hn hs nofun) _
  next hs => exact h.awaitReply hs
  next hs =>
    split
    · exact (hr hs nofun).takeHalf _ _
    · exact hr hs nofun
  next hs => exact (hr hs nofun).shutHalf _ _
  next hs =>
    split
    · exact (hr hs nofun).finish n _
    · exact hr hs nofun
  next hs => exact hr hs nofun
  next hs => exact hr hs nofun

theorem Orderly.erase (h : c.Orderly count) (t : Task) :
    { c with ready := c.ready.erase t }.Orderly count :=
  ⟨h.length, h.nodup.erase t, fun x hx => h.ready x (List.mem_of_mem_erase hx), h.queue, h.timers⟩

/-- **A turn leaves nobody asleep.** -/
theorem Alert.turn (h : c.Alert count none) (t : Task) : (c.turn t).Alert count none := by
  have he := h.toOrderly.erase t
  cases t with
  | reader =>
    refine Alert.runReader ⟨he, fun n w due hb hs hm => ?_⟩
    have hne : Task.call n ≠ .reader := nofun
    exact (List.mem_erase_of_ne hne).2 (h.woken n w due hb hs hm)
  | call n =>
    refine Alert.runCall ⟨he, fun m w due hb hs hm => ?_⟩
    refine (List.mem_erase_of_ne fun hx => hb ?_).2 (h.woken m w due nofun hs hm)
    cases hx
    rfl

/-! ### What happens from outside -/

theorem Alert.cancelCall (h : c.Alert count none) (n : Nat) :
    (c.cancelCall n).Alert count none := by
  have hd : ((c.clearTimer n).setStage n .dropped).Alert count none :=
    (h.clearTimer n).setStage nofun
  unfold Client.cancelCall
  dsimp only
  split
  · exact hd.dropStream
  · exact hd.withdraw _
  · exact hd.withdraw _
  next s _ => exact (hd.leaveIfAny s.waiter).leaveWritePath
  next w _ _ => exact hd.leaveIfAny (some w)
  · exact hd.handOn fun _ => id
  · exact hd
  · exact hd
  · exact h
  · exact h

theorem Alert.letGo (h : c.Alert count none) : c.letGo.Alert count none := by
  have hh : ({ c with held := false } : Client).Alert count none :=
    h.of_eq rfl rfl rfl (fun _ => id) rfl
  have ha := hh.askStop
  unfold Client.letGo
  split
  · dsimp only
    split
    · exact ha
    · refine ha.handOn fun x hx => ?_
      rw [WritePath.queue_dropHalf] at hx
      exact hx
  · exact h

theorem Alert.addCall (h : c.Alert count none) (job : Job) :
    (c.addCall job).Alert (count + 1) none := by
  have hm : ∀ {t : Task}, t.Among count → t.Among (count + 1) := fun ht => ht.mono (Nat.le_succ _)
  refine ⟨⟨?_, h.nodup, fun t ht => hm (h.ready t ht), fun t ht => hm (h.queue t ht),
    fun t ht => Nat.lt_succ_of_lt (h.timers t ht)⟩, fun n w due hb hs => ?_⟩
  · have hl := h.length
    simpa [Client.addCall] using hl
  · have hf : (c.addCall job).stage n ≠ .fresh := by simp [hs]
    rw [(stage_addCall c job n).resolve_right hf] at hs
    exact h.woken n w due hb hs

theorem Alert.fireTimers (h : c.Alert count none) : c.fireTimers.Alert count none := by
  have hf : ∀ (l : List Timer) (c : Client), c.Alert count none → (∀ t ∈ l, t.call < count) →
      (l.foldl (fun c t => c.wake (.call t.call)) c).Alert count none := by
    intro l
    induction l with
    | nil => exact fun c h _ => h
    | cons t l ih =>
      exact fun c h hl => ih _ (h.wake (t := .call _) (hl t (by simp))) fun x hx =>
        hl x (by simp [hx])
  unfold Client.fireTimers
  refine hf _ _ (h.of_eq rfl rfl rfl (fun t ht => (List.mem_filter.1 ht).1) rfl) fun t ht => ?_
  rw [List.mem_mergeSort] at ht
  exact h.timers t (List.mem_filter.1 ht).1

theorem Alert.act (h : c.Alert c.calls.length none) (a : Action) :
    (c.act a).Alert (c.act a).calls.length none := by
  have hx : ∀ {c' : Client} {count : Nat}, c'.Alert count none →
      c'.Alert c'.calls.length none := fun h => h.length.symm ▸ h
  cases a with
  | start job => exact hx ((h.addCall job).wake (t := .call c.calls.length) (Nat.lt_succ_self _))
  | cancel n => exact hx (h.cancelCall n)
  | feed more =>
    have hf : { c with source := c.source.feed more }.Alert c.calls.length none :=
      h.of_eq rfl rfl rfl (fun _ => id) rfl
    unfold Client.act wakeReaders
    dsimp only
    split
    · exact hx ((hf.wakeCalls _).wake trivial)
    · exact hx (hf.wakeCalls _)
  | change d =>
    have hf : { c with peer := c.peer.change d }.Alert c.calls.length none :=
      h.of_eq rfl rfl rfl (fun _ => id) rfl
    unfold Client.act wakeWriters
    dsimp only
    split
    · exact hx ((hf.wakeCalls _).wake trivial)
    · exact hx (hf.wakeCalls _)
  | advance millis =>
    have hf : { c with now := c.now + millis }.Alert c.calls.length none :=
      h.of_eq rfl rfl rfl (fun _ => id) rfl
    exact hx hf.fireTimers
  | part =>
    unfold Client.act Client.takeLeave
    dsimp only
    split
    · exact hx h.askStop
    · exact h
  | drop =>
    have hl : ∀ (l : List Nat) (d : Client), d.Alert c.calls.length none →
        (l.foldl Client.cancelCall d).Alert c.calls.length none := by
      intro l
      induction l with
      | nil => exact fun d h => h
      | cons n l ih => exact fun d h => ih _ (h.cancelCall n)
    exact hx (hl _ _ h).letGo

theorem Alert.overlook {count : Nat} (h : c.Alert count none) (frames : Nat) :
    (c.overlook frames).Alert count none := by
  unfold Client.overlook
  split
  · exact h.readFrames _ _
  · exact h

/-- **Nobody oversleeps**, whichever way the tasks take their turns. -/
theorem Possible.alert {config : Config} (h : Possible config c) :
    c.Alert c.calls.length none := by
  induction h with
  | refl =>
    refine ⟨⟨rfl, List.nodup_nil, nofun, nofun, nofun⟩, fun n w due _ hs => ?_⟩
    cases hs
  | tail _ hg ih =>
    cases hg with
    | follows hf =>
      cases hf with
      | act a => exact ih.act a
      | turn t =>
        have ht := ih.turn t
        exact ht.length.symm ▸ ht
    | overlook count =>
      have ho := ih.overlook count
      exact ho.length.symm ▸ ho

end DocWire.Client
