import DocWire.Proofs.Client.Alert
import DocWire.Proofs.Client.Sealed

/-! # What a turn leaves alone

A task that takes its turn changes the stage of no other call, takes nobody out of the line of those
that can go on, and lets no time pass. A call, moreover, leaves the reader where it is, and does not
take back the request that it should stop (`Tends`). Only the handshake brings the reader into
being. -/

namespace DocWire.Client

open DocWire.Correlator (Waiter Slot)

/-- What a task leaves alone on the way from one client to another. -/
structure Tends (t : Task) (b c : Client) : Prop where
  now : c.now = b.now
  ready : ∀ x ∈ b.ready, x ∈ c.ready
  stage : ∀ m, t ≠ .call m → c.stage m = b.stage m
  reader : t ≠ .reader → b.life ≠ .unconnected → c.reader = b.reader ∧ c.life ≠ .unconnected
  asked : t ≠ .reader → b.stopAsked = true → c.stopAsked = true

variable {b c c' : Client} {n : Nat} {t : Task} {k : AfterClose}

namespace Tends

theorem refl (t : Task) (c : Client) : Tends t c c :=
  ⟨rfl, fun _ hx => hx, fun _ _ => rfl, fun _ hl => ⟨rfl, hl⟩, fun _ ha => ha⟩

theorem trans (h : Tends t b c) (h' : Tends t c c') : Tends t b c' where
  now := h'.now.trans h.now
  ready x hx := h'.ready x (h.ready x hx)
  stage m hm := (h'.stage m hm).trans (h.stage m hm)
  reader ht hl := by
    obtain ⟨hr, hl⟩ := h.reader ht hl
    obtain ⟨hr', hl'⟩ := h'.reader ht hl
    exact ⟨hr'.trans hr, hl'⟩
  asked ht ha := h'.asked ht (h.asked ht ha)

theorem of_eq (h : Tends t b c) (hn : c'.now = c.now) (hr : c'.ready = c.ready)
    (hc : c'.calls = c.calls) (hd : c'.reader = c.reader) (hl : c'.life = c.life)
    (ha : c'.stopAsked = c.stopAsked) : Tends t b c' :=
  h.trans ⟨hn, fun _ hx => hr ▸ hx, fun _ _ => stage_congr hc _,
    fun _ hx => ⟨hd, hl ▸ hx⟩, fun _ hx => ha ▸ hx⟩

theorem of_core (h : Tends t b c) (hq : c'.core = c.core) (hr : ∀ x ∈ c.ready, x ∈ c'.ready)
    (ha : c'.stopAsked = c.stopAsked) : Tends t b c' := by
  have hn := congrArg Client.now hq
  exact h.trans ⟨hn, hr, fun m _ => stage_eq hq m, fun _ hx => ⟨reader_eq hq, life_eq hq ▸ hx⟩,
    fun _ hx => ha ▸ hx⟩

/-! ### Waking -/

theorem wake (h : Tends t b c) (x : Task) : Tends t b (c.wake x) := by
  refine h.of_core (core_wake c x) (fun y hy => (mem_wake c x).2 (.inl hy)) ?_
  unfold Client.wake
  split <;> rfl

theorem wakeFirst (h : Tends t b c) (l : List Task) : Tends t b (c.wakeFirst l) := by
  cases l with
  | nil => exact h
  | cons x l => exact h.wake x

theorem wakeCalls (h : Tends t b c) (p : Stage → Bool) : Tends t b (c.wakeCalls p) := by
  have hf : ∀ (l : List Nat) (d : Client), Tends t b d →
      Tends t b (l.foldl (fun c n => if p (c.stage n) then c.wake (.call n) else c) d) := by
    intro l
    induction l with
    | nil => exact fun d hd => hd
    | cons m l ih =>
      intro d hd
      rw [List.foldl_cons]
      split
      · exact ih _ (hd.wake _)
      · exact ih _ hd
  exact hf _ c h

theorem wakeDecided (h : Tends t b c) : Tends t b c.wakeDecided := h.wakeCalls _

/-! ### Stages and timers -/

theorem setStage (h : Tends (.call n) b c) (s : Stage) : Tends (.call n) b (c.setStage n s) := by
  refine h.trans ⟨rfl, fun _ hx => hx, fun m hm => ?_, fun _ hl => ⟨rfl, hl⟩, fun _ ha => ha⟩
  rw [stage_setStage, if_neg fun hx => hm (by rw [hx.1])]

theorem clearTimer (h : Tends t b c) (n : Nat) : Tends t b (c.clearTimer n) :=
  h.of_eq rfl rfl rfl rfl rfl rfl

theorem setTimer (h : Tends t b c) (n due : Nat) : Tends t b (c.setTimer n due) := by
  unfold Client.setTimer
  split
  · exact h
  · exact h.of_eq rfl rfl rfl rfl rfl rfl

theorem finish (h : Tends (.call n) b c) (r : Except Failure Outcome) :
    Tends (.call n) b (c.finish n r) := (h.clearTimer n).setStage _

theorem record (h : Tends t b c) (i : Incident) : Tends t b (c.record i) :=
  h.of_eq rfl rfl rfl rfl rfl rfl

/-! ### The write path -/

theorem setWrite (h : Tends t b c) (write : WritePath) : Tends t b { c with write := write } :=
  h.of_eq rfl rfl rfl rfl rfl rfl

theorem release (h : Tends t b c) : Tends t b c.release := (h.setWrite _).wakeFirst _

theorem vacate (h : Tends t b c) : Tends t b c.vacate := by
  refine h.trans ⟨rfl, fun _ hx => hx, fun _ _ => rfl, fun _ hl => ⟨rfl, hl⟩, fun _ ha => ?_⟩
  change (c.stopAsked || c.write.torn) = true
  rw [ha]
  rfl

theorem leaveWritePath (h : Tends t b c) : Tends t b c.leaveWritePath := by
  unfold Client.leaveWritePath
  refine Tends.wakeFirst ?_ _
  split
  · exact h.vacate.wake _
  · exact h.vacate

theorem askStop (h : Tends t b c) : Tends t b c.askStop := by
  refine Tends.wake ?_ .reader
  exact h.trans ⟨rfl, fun _ hx => hx, fun _ _ => rfl, fun _ hl => ⟨rfl, hl⟩, fun _ _ => rfl⟩

theorem withdraw (h : Tends t b c) (x : Task) : Tends t b (c.withdraw x) := by
  unfold Client.withdraw
  split
  · exact h.release
  · exact h.setWrite _

/-! ### Closing -/

theorem setReader (h : Tends .reader b c) (r : ReaderStage) :
    Tends .reader b { c with reader := r } :=
  h.trans ⟨rfl, fun _ hx => hx, fun _ _ => rfl, fun hx => absurd rfl hx, fun hx => absurd rfl hx⟩

theorem endReader (h : Tends .reader b c) : Tends .reader b c.endReader := by
  have hr := h.setReader .ended
  unfold Client.endReader
  refine Tends.wakeCalls ?_ _
  split
  · exact hr
  · exact hr.setWrite _

theorem joinReader (h : Tends (.call n) b c) : Tends (.call n) b (c.joinReader n) := by
  have hj : Tends (.call n) b { c with joinable := false } := h.of_eq rfl rfl rfl rfl rfl rfl
  unfold Client.joinReader
  split
  · dsimp only
    split
    · exact hj.finish _
    · exact hj.setStage _
  · exact h.finish _

theorem afterClose (h : Tends t b c) (k : AfterClose) : Tends t b (c.afterClose t k) := by
  cases t with
  | reader => exact h.endReader
  | call n =>
    cases k with
    | finish r => exact h.finish r
    | join => exact h.joinReader

theorem setLife (h : Tends t b c) {l : Life} (hl : l ≠ .unconnected) :
    Tends t b { c with life := l } :=
  h.trans ⟨rfl, fun _ hx => hx, fun _ _ => rfl, fun _ _ => ⟨rfl, hl⟩, fun _ ha => ha⟩

theorem shutHalf (h : Tends t b c) (k : AfterClose) : Tends t b (c.shutHalf t k) := by
  unfold Client.shutHalf
  split
  · exact h.of_eq rfl rfl rfl rfl rfl rfl
  · refine Tends.afterClose ?_ k
    exact (h.setLife (l := .closed) nofun).of_eq rfl rfl rfl rfl rfl rfl

theorem toShutdown (h : Tends t b c) (k : AfterClose) : Tends t b (c.toShutdown k t) := by
  cases t with
  | reader => exact h.setReader _
  | call n => exact h.setStage _

theorem toCloseLock (h : Tends t b c) (k : AfterClose) : Tends t b (c.toCloseLock k t) := by
  cases t with
  | reader => exact h.setReader _
  | call n => exact h.setStage _

theorem takeHalf (h : Tends t b c) (k : AfterClose) : Tends t b (c.takeHalf t k) := by
  unfold Client.takeHalf
  split
  · exact ((h.setWrite _).release.toShutdown k).shutHalf k
  · exact (h.release.setLife (l := .closed) nofun).afterClose k

theorem lineUpToClose (h : Tends t b c) (k : AfterClose) : Tends t b (c.lineUpToClose t k) := by
  unfold Client.lineUpToClose
  dsimp only
  split
  · exact (h.setWrite _).takeHalf k
  · exact h.setWrite _

theorem breakOff (h : Tends t b c) : Tends t b c.breakOff :=
  (h.setLife (l := .closing) nofun).of_eq rfl rfl rfl rfl rfl rfl

theorem close (h : Tends t b c) (k : AfterClose) : Tends t b (c.close t k) := by
  unfold Client.close
  split
  · exact (h.toCloseLock k).breakOff.wakeDecided.askStop.lineUpToClose k
  · exact h.afterClose k

/-! ### The wait for a reply -/

theorem forget (h : Tends t b c) (w : Waiter) : Tends t b (c.forget w) :=
  h.of_eq rfl rfl rfl rfl rfl rfl

theorem leaveIfAny (h : Tends t b c) (waiter : Option Waiter) : Tends t b (c.leaveIfAny waiter) := by
  cases waiter with
  | none => exact h
  | some w => exact (h.forget w).wakeDecided

theorem conclude (h : Tends (.call n) b c) (w : Waiter) (r : Except Failure Reply) :
    Tends (.call n) b (c.conclude n w r) := by
  cases r with
  | error e => exact (h.forget w).setStage _
  | ok reply =>
    have ha := (h.forget w).record (.answered n reply)
    unfold Client.conclude
    dsimp only
    refine Tends.setStage ?_ _
    split
    · exact ha.of_eq rfl rfl rfl rfl rfl rfl
    · exact ha

theorem awaitReply (h : Tends (.call n) b c) (w : Waiter) (due : Nat) :
    Tends (.call n) b (c.awaitReply n w due) := by
  unfold Client.awaitReply
  split
  · exact ((h.clearTimer n).conclude w _).wakeDecided
  · exact h.setTimer n due

/-! ### Sending -/

theorem failSending (h : Tends (.call n) b c) (waiter : Option Waiter) (e : Failure) :
    Tends (.call n) b (c.failSending n waiter e) := by
  have hl := (((h.record (.unsent n e)).clearTimer n).leaveWritePath).leaveIfAny waiter
  unfold Client.failSending
  dsimp only
  split
  · exact hl.close _
  · exact hl.finish _

theorem afterSending (h : Tends (.call n) b c) (waiter : Option Waiter) :
    Tends (.call n) b (c.afterSending n waiter) := by
  have hl := ((h.record (.sent n c.now)).clearTimer n).leaveWritePath
  unfold Client.afterSending
  cases waiter with
  | none => exact hl.finish _
  | some w => exact (hl.setStage _).awaitReply w _

theorem holdSending (h : Tends (.call n) b c) (s : Sending) :
    Tends (.call n) b (c.holdSending n s) := by
  unfold Client.holdSending
  split
  · exact h.failSending _ _
  · exact h.setTimer n _

theorem writeOn (h : Tends (.call n) b c) (s : Sending) : Tends (.call n) b (c.writeOn n s) := by
  have hr : ∀ peer s, Tends (.call n) b ({ c with peer := peer }.sendRest n s) := fun peer s => by
    have hp : Tends (.call n) b { c with peer := peer } := h.of_eq rfl rfl rfl rfl rfl rfl
    exact (hp.setWrite _).setStage _
  unfold Client.writeOn
  generalize c.peer.write s.rest = w
  obtain ⟨written, peer⟩ := w
  cases written with
  | all =>
    dsimp only
    split
    · exact (hr _ _).afterSending _
    · exact (hr _ _).holdSending _
    · exact (hr _ _).failSending _ _
  | waiting rest => exact (hr _ _).holdSending _
  | nothing rest => exact (hr _ _).failSending _ _
  | failed text rest => exact (hr _ _).failSending _ _

theorem sendMessage (h : Tends (.call n) b c) (waiter : Option Waiter) (m : ClientMessage) :
    Tends (.call n) b (c.sendMessage n waiter m) := by
  have hr := h.record (.sending n m)
  unfold Client.sendMessage
  dsimp only
  split
  · exact hr.failSending _ _
  · split
    · exact (hr.setStage _).writeOn _
    · exact hr.failSending _ _

theorem useWritePath (h : Tends (.call n) b c) : Tends (.call n) b (c.useWritePath n) := by
  have hu : Tends (.call n) b c.useId := h.setWrite _
  unfold Client.useWritePath
  split
  · unfold Client.request
    split
    · exact hu.leaveWritePath.finish _
    · refine Tends.sendMessage ?_ _ _
      exact hu.of_eq rfl rfl rfl rfl rfl rfl
  · exact h.sendMessage _ _
  · exact h.leaveWritePath.finish _

theorem goForWritePath (h : Tends (.call n) b c) : Tends (.call n) b (c.goForWritePath n) := by
  have ha := (h.setWrite (c.write.acquire (.call n))).setStage .lock
  unfold Client.goForWritePath
  dsimp only
  split
  · exact ha.useWritePath
  · exact ha

/-! ### The reader -/

theorem resolve (h : Tends t b c) (id : String) (isError : Bool) (reply : Reply) :
    Tends t b (c.resolve id isError reply) := by
  unfold Client.resolve
  split
  · exact h
  · refine Tends.wakeDecided ?_
    exact h.of_eq rfl rfl rfl rfl rfl rfl

theorem route (h : Tends t b c) (f : Frame) : Tends t b (c.route f) := by
  have hr := h.record (.routed f)
  unfold Client.route
  dsimp only
  split
  · exact hr
  · unfold Client.routePayload
    split
    · exact hr
    · split
      · exact hr
      · split
        · split
          · unfold Client.dispatch
            split
            · exact hr.record _
            · exact hr
          · exact hr
        · exact hr.resolve _ _ _

theorem readFrames (h : Tends .reader b c) (fuel : Nat) (buffer : Frame.Buffer) :
    Tends .reader b (c.readFrames fuel buffer) := by
  have hs : ∀ {d : Client} (source : Stream.Source), Tends .reader b d →
      Tends .reader b { d with source := source } := fun _ hd => hd.of_eq rfl rfl rfl rfl rfl rfl
  induction fuel generalizing c buffer with
  | zero => exact h.setReader _
  | succ fuel ih =>
    unfold Client.readFrames
    split
    · split
      · exact ih ((hs _ h).route _) _
      · exact (hs _ h).endReader
    · exact (h.setReader (.reading _)).of_eq rfl rfl rfl rfl rfl rfl
    · split
      · exact (hs _ h).close _
      · exact (hs _ h).endReader

theorem runReader (h : Tends .reader b c) : Tends .reader b c.runReader := by
  unfold Client.runReader
  split
  · split
    · have ha : Tends .reader b { c with stopAsked := false } :=
        h.trans ⟨rfl, fun _ hx => hx, fun _ _ => rfl, fun hx => absurd rfl hx,
          fun hx => absurd rfl hx⟩
      dsimp only
      split
      · exact ha.close _
      · exact ha.endReader
    · exact h.readFrames _ _
  · split
    · exact h.takeHalf _
    · exact h
  · exact h.shutHalf _
  · exact h
  · exact h

theorem overlook (h : Tends .reader b c) (count : Nat) : Tends .reader b (c.overlook count) := by
  unfold Client.overlook
  split
  · exact h.readFrames _ _
  · exact h

/-! ### Calls -/

theorem early (h : Tends t b c) (hu : b.life = .unconnected) (hn : c'.now = c.now)
    (hr : c'.ready = c.ready) (hc : c'.calls = c.calls) (ha : c'.stopAsked = c.stopAsked) :
    Tends t b c' where
  now := hn.trans h.now
  ready x hx := hr ▸ h.ready x hx
  stage m hm := (stage_congr hc m).trans (h.stage m hm)
  reader _ hl := absurd hu hl
  asked ht hx := ha ▸ h.asked ht hx

theorem dropStream (h : Tends t b c) (hu : b.life = .unconnected) : Tends t b c.dropStream :=
  h.early hu rfl rfl rfl rfl

theorem runHandshake (h : Tends (.call n) b c) (hu : b.life = .unconnected)
    (e : Handshake.Exchange) (due : Nat) : Tends (.call n) b (c.runHandshake n e due) := by
  have hd : ∀ source peer, Tends (.call n) b { c with source := source, peer := peer } :=
    fun source peer => h.of_eq rfl rfl rfl rfl rfl rfl
  unfold Client.runHandshake
  split
  next session source peer _ =>
    have ha : Tends (.call n) b ({ c with source := source, peer := peer }.accept session) :=
      (hd source peer).early hu rfl rfl rfl rfl
    exact (ha.wake _).finish _
  next source peer _ => exact ((hd source peer).dropStream hu).finish _
  next source peer _ =>
    dsimp only
    split
    · exact ((hd source peer).dropStream hu).finish _
    · exact ((hd source peer).setTimer n due).setStage _

theorem shakeHands (h : Tends (.call n) b c) (hu : b.life = .unconnected)
    (first : Except Failure (List UInt8)) : Tends (.call n) b (c.shakeHands n first) := by
  cases first with
  | error e => exact (h.dropStream hu).finish _
  | ok bytes => exact ((h.setWrite _).setStage _).runHandshake hu _ _

theorem startOperation (h : Tends (.call n) b c) (op : Operation) :
    Tends (.call n) b (c.startOperation n op) := by
  unfold Client.startOperation
  split
  · exact h.finish _
  · split
    · exact h.goForWritePath
    · exact h.finish _

theorem startUnsubscribe (h : Tends (.call n) b c) (id : String) :
    Tends (.call n) b (c.startUnsubscribe n id) := by
  unfold Client.startUnsubscribe
  split
  · have hr : Tends (.call n) b
        { c.record (.unsubscribed id) with routes := (c.routes.unsubscribe id).2 } :=
      h.of_eq rfl rfl rfl rfl rfl rfl
    dsimp only
    split
    · exact hr.goForWritePath
    · exact hr.finish _
  · exact h.finish _

theorem runCall (h : Tends (.call n) b c) (hs : ∀ e due, c.stage n = .handshake e due →
      b.life = .unconnected) (hu : c.write.half = .unused → b.life = .unconnected) :
    Tends (.call n) b (c.runCall n) := by
  unfold Client.runCall
  split
  · split
    · split
      next hw => exact h.shakeHands (hu hw) _
      next => exact h.finish _
    · exact h.startOperation _
    · exact h.startUnsubscribe _
    · exact h.finish _
    · exact h.close _
  next e due he => exact h.runHandshake (hs e due he) e due
  · split
    · exact h.useWritePath
    · exact h
  · exact h.writeOn _
  · exact h.awaitReply _ _
  · split
    · exact h.takeHalf _
    · exact h
  · exact h.shutHalf _
  · split
    · exact h.finish _
    · exact h
  · exact h
  · exact h

theorem cancelCall (h : Tends (.call n) b c) (hs : ∀ e due, c.stage n = .handshake e due →
      b.life = .unconnected) : Tends (.call n) b (c.cancelCall n) := by
  have hd : Tends (.call n) b ((c.clearTimer n).setStage n .dropped) := (h.clearTimer n).setStage _
  unfold Client.cancelCall
  dsimp only
  split
  next e due he => exact hd.dropStream (hs e due he)
  · exact hd.withdraw _
  · exact hd.withdraw _
  · exact (hd.leaveIfAny _).leaveWritePath
  next w _ _ => exact hd.leaveIfAny (some w)
  · exact hd.setWrite _
  · exact hd
  · exact hd
  · exact h
  · exact h

end Tends

/-- **What a turn leaves alone.** -/
theorem Guarded.tends_turn (hg : Guarded c) (hl : Sealed c) (t : Task) :
    Tends t { c with ready := c.ready.erase t } (c.turn t) := by
  have h := Tends.refl t { c with ready := c.ready.erase t }
  cases t with
  | reader => exact h.runReader
  | call n =>
    refine h.runCall (fun e due hs => hl.unconnected_of_handshake hg hs) fun hu => ?_
    by_contra hx
    exact (hl.begun hx).1 (hg.young (.inl hu))

theorem Guarded.stage_turn (hg : Guarded c) (hl : Sealed c) {m : Nat} (ht : t ≠ .call m) :
    (c.turn t).stage m = c.stage m := (hg.tends_turn hl t).stage m ht

theorem Guarded.mem_ready_turn (hg : Guarded c) (hl : Sealed c) {x : Task} (hx : x ∈ c.ready)
    (ht : x ≠ t) : x ∈ (c.turn t).ready :=
  (hg.tends_turn hl t).ready x ((List.mem_erase_of_ne ht).2 hx)

theorem stage_overlook (c : Client) (count n : Nat) : (c.overlook count).stage n = c.stage n :=
  ((Tends.refl .reader c).overlook count).stage n nofun

end DocWire.Client
