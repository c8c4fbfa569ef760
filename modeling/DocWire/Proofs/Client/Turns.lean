import DocWire.Proofs.Client.Moves

/-! # Turns are made of moves

Every function that a turn or an action runs through is a series of moves, under the condition on
stages under which it is called. The last two theorems put them together: whatever happens to a
client, and whichever task takes a turn, is a series of moves. -/

namespace DocWire.Client

open DocWire.Correlator (Waiter)

variable {c c₁ : Client} {n : Nat} {t : Task} {k : AfterClose}

/-! ### Stages of calls -/

theorem lt_of_stage_ne_dropped (h : c.stage n ≠ .dropped) : n < c.calls.length := by
  refine Nat.lt_of_not_le fun hn => h ?_
  simp [stage, List.getElem?_eq_none hn]

theorem stage_setStage (c : Client) (n i : Nat) (s : Stage) :
    (c.setStage n s).stage i = if i = n ∧ n < c.calls.length then s else c.stage i := by
  unfold stage setStage
  rw [List.getElem?_modify]
  by_cases hi : n = i
  · subst hi
    by_cases hn : n < c.calls.length
    · simp [hn]
    · simp [hn]
  · simp [hi, Ne.symm hi]

theorem stage_setStage_self (h : n < c.calls.length) (s : Stage) :
    (c.setStage n s).stage n = s := by simp [stage_setStage, h]

theorem setStage_setStage (c : Client) (n : Nat) (s s' : Stage) :
    (c.setStage n s).setStage n s' = c.setStage n s' := by
  unfold setStage
  rw [List.modify_modify_eq]
  rfl

theorem job_setStage (c : Client) (n i : Nat) (s : Stage) : (c.setStage n s).job i = c.job i := by
  unfold job setStage
  rw [List.getElem?_modify]
  cases c.calls[i]? with
  | none => rfl
  | some call =>
    simp only [Option.map_eq_map, Option.map_some]
    split <;> rfl

theorem length_setStage (c : Client) (n : Nat) (s : Stage) :
    (c.setStage n s).calls.length = c.calls.length := by simp [setStage]

/-! ### Closing -/

theorem core_endReader (c : Client) :
    c.endReader.core =
      { c with reader := .ended, write := if c.held then c.write else c.write.dropHalf }.core := by
  unfold endReader
  cases c.held <;> simp [dropHalf]

theorem moves_endReader (hl : c.life ≠ .connected ∨ c.held = false)
    (hr : c.life = .closed ∨ ∃ b, c.reader = .reading b) : c.Moves c.endReader :=
  .one (.endReader hl hr) (core_endReader c).symm

theorem core_afterClose (c : Client) (n : Nat) (k : AfterClose) :
    ∃ s, k.EndsIn s ∧ (c.afterClose (.call n) k).core = (c.setStage n s).core ∧
      (c.afterClose (.call n) k).ready = c.ready := by
  cases k with
  | finish r => exact ⟨_, rfl, rfl, rfl⟩
  | join =>
    simp only [afterClose, joinReader]
    split
    · split
      · exact ⟨_, .inr rfl, rfl, rfl⟩
      · exact ⟨_, .inl rfl, rfl, rfl⟩
    · exact ⟨_, .inr rfl, rfl, rfl⟩

theorem moves_afterClose (hs : c.InCloseLock k t ∨ c.InShutdown k t) (hl : c.life = .closed) :
    c.Moves (c.afterClose t k) := by
  cases t with
  | reader => exact moves_endReader (.inl (by simp [hl])) (.inl hl)
  | call n =>
    obtain ⟨s, hk, hq, -⟩ := core_afterClose c n k
    exact .one (.rest hs hl hk) hq.symm

theorem moves_shutHalf (hs : c.InShutdown k t) : c.Moves (c.shutHalf t k) := by
  unfold shutHalf Stream.Sink.askShutdown
  split
  next h =>
    obtain ⟨-, rfl⟩ := Prod.mk.inj h
    exact .quiet rfl
  next h =>
    obtain ⟨-, rfl⟩ := Prod.mk.inj h
    have hm : c.Moves { c with
        peer := { c.peer with shutdownAsked := true }
        write := { c.write with half := .gone }
        life := .closed } := .one (.shut hs) rfl
    refine hm.trans (moves_afterClose (.inr ?_) rfl)
    cases t <;> exact hs

theorem inShutdown_toShutdown (h : c.InCloseLock k t) : (c.toShutdown k t).InShutdown k t := by
  cases t with
  | reader => rfl
  | call n =>
    refine stage_setStage_self (lt_of_stage_ne_dropped ?_) _
    have hn : c.stage n = .closeLock k := h
    simp [hn]

theorem core_toShutdown {c' : Client} (h : c.core = c'.core) (k : AfterClose) (t : Task) :
    (c.toShutdown k t).core = (c'.toShutdown k t).core := by
  cases t with
  | reader => exact congrArg (fun d : Client => { d with reader := .closeShutdown }) h
  | call n => exact core_setStage h n _

theorem inCloseLock_congr {c' : Client} (h : c.core = c'.core) (hs : c.InCloseLock k t) :
    c'.InCloseLock k t := by
  cases t with
  | reader =>
    have hr : c.core.reader = .closeLock := hs
    rw [h] at hr
    exact hr
  | call n => exact (stage_eq h n).symm.trans hs

theorem moves_takeHalf (hs : c.InCloseLock k t) (hh : c.holds t = true) :
    c.Moves (c.takeHalf t k) := by
  unfold takeHalf
  split
  next hw =>
    have hq := (core_release { c with write := { c.write with half := .leaving } }).symm
    refine .trans (.one (.takeHalf hs hh hw) (core_toShutdown hq k t)) ?_
    refine moves_shutHalf (inShutdown_toShutdown (inCloseLock_congr hq ?_))
    cases t <;> exact hs
  next hw =>
    have hq := core_setLife (core_release c).symm .closed
    refine .trans (.one (.findGone hs hh hw) hq) (moves_afterClose (.inl ?_) rfl)
    refine inCloseLock_congr hq ?_
    cases t <;> exact hs

theorem moves_lineUpToClose (hs : c.InCloseLock k t) (hl : c.life = .closing) :
    c.Moves (c.lineUpToClose t k) := by
  have hm := Moves.one (.lineUpToClose hs hl) rfl
  unfold lineUpToClose
  dsimp only
  split
  next hh => exact hm.trans (moves_takeHalf (by cases t <;> exact hs) hh)
  next => exact hm

theorem moves_afterBreakOff (hs : c.InCloseLock k t) :
    c.breakOff.Moves (c.breakOff.wakeDecided.askStop.lineUpToClose t k) := by
  have hq : c.breakOff.core = c.breakOff.wakeDecided.askStop.core := by simp
  refine .trans (.quiet hq) (moves_lineUpToClose (inCloseLock_congr hq ?_) ?_)
  · cases t <;> exact hs
  · have hc : c.breakOff.core.life = .closing := rfl
    rw [hq] at hc
    exact hc

theorem inCloseLock_toCloseLock (h : c.MayClose k t) : (c.toCloseLock k t).InCloseLock k t := by
  cases t with
  | reader => rfl
  | call n => exact stage_setStage_self (lt_of_stage_ne_dropped (by simp [h.1])) _

/-- Closing by a task that may find the connection open. -/
theorem moves_close (h : c.MayClose k t) : c.Moves (c.close t k) := by
  unfold close
  split
  next hl =>
    exact .trans (.single (.close h hl)) (moves_afterBreakOff (inCloseLock_toCloseLock h))
  next hl =>
    cases t with
    | reader => exact moves_endReader (.inl hl) (.inr h)
    | call n =>
      obtain ⟨hs, hj, rfl⟩ := h
      have hd : ∀ op, c.job n ≠ .operation op := by simp [hj]
      simp only [afterClose, joinReader]
      split
      · split
        · exact .one (.leaveItAt hs hd (.inl rfl)) rfl
        · exact .one (.waitForReader hs hj hl) rfl
      · exact .one (.leaveItAt hs hd (.inl rfl)) rfl

/-! ### Sending -/

theorem Enters.stage_eq_lock {m : ClientMessage} {waiter : Option Waiter}
    (h : c.Enters n m waiter c₁) : c.stage n = .lock := by
  cases h <;> assumption

theorem Enters.calls_eq {m : ClientMessage} {waiter : Option Waiter}
    (h : c.Enters n m waiter c₁) : c₁.calls = c.calls := by
  cases h <;> rfl

theorem Sends.calls_eq {waiter : Option Waiter} (h : c.Sends n waiter c₁) :
    c₁.calls = c.calls := by
  cases h with
  | atOnce he => exact he.calls_eq
  | later hs => rfl

theorem Sends.life_eq {waiter : Option Waiter} (h : c.Sends n waiter c₁) : c₁.life = c.life := by
  cases h with
  | atOnce he => cases he <;> rfl
  | later hs => rfl

theorem Sends.lt_length {waiter : Option Waiter} (h : c.Sends n waiter c₁) :
    n < c.calls.length := by
  cases h with
  | atOnce he => exact lt_of_stage_ne_dropped (by simp [he.stage_eq_lock])
  | later hs => exact lt_of_stage_ne_dropped (by simp [hs])

theorem calls_forgetAny (c : Client) (w : Option Waiter) : (c.forgetAny w).calls = c.calls := by
  cases w <;> rfl

theorem life_forgetAny (c : Client) (w : Option Waiter) : (c.forgetAny w).life = c.life := by
  cases w <;> rfl

theorem job_congr {c' : Client} (h : c.calls = c'.calls) (n : Nat) : c.job n = c'.job n := by
  unfold job; rw [h]

/-- A failed sending, whether it has just been set out on or is under way, and what is left to do
after it. -/
theorem exists_fails {waiter : Option Waiter} {e : Failure} (hs : c.Sends n waiter c₁)
    (hx : e.endsConnection = true ∨ c.stage n = .lock) :
    ∃ d, c.Fails n e ((c₁.record (.unsent n e)).yield.forgetAny waiter) d ∧
      d.Moves (c₁.failSending n waiter e) := by
  have hq : ((c₁.record (.unsent n e)).yield.forgetAny waiter).core =
      ((((c₁.record (.unsent n e)).clearTimer n).leaveWritePath).leaveIfAny waiter).core := by
    rw [core_leaveIfAny]
    refine core_forgetAny (Eq.trans ?_ (core_leaveWritePath _).symm) waiter
    exact core_yield (core_clearTimer _ n).symm
  have hc : ((((c₁.record (.unsent n e)).clearTimer n).leaveWritePath).leaveIfAny waiter).calls =
      c.calls :=
    (calls_eq hq.symm).trans ((calls_forgetAny _ _).trans hs.calls_eq)
  have hl : ((((c₁.record (.unsent n e)).clearTimer n).leaveWritePath).leaveIfAny waiter).life =
      c.life :=
    (life_eq hq.symm).trans ((life_forgetAny _ _).trans hs.life_eq)
  unfold failSending
  dsimp only
  rw [job_congr hc]
  generalize (((c₁.record (.unsent n e)).clearTimer n).leaveWritePath).leaveIfAny waiter = c₂
    at hc hl hq ⊢
  have hstay : c.life ≠ .connected ∨ e.endsConnection = false ∧ c.stage n = .lock →
      ∃ d, c.Fails n e ((c₁.record (.unsent n e)).yield.forgetAny waiter) d ∧
        d.Moves (c₂.finish n (failedOutcome (c.job n) e)) := fun h =>
    ⟨_, .ends h, .quiet ((core_setStage hq n _).trans (core_finish _ _ _).symm)⟩
  split
  next hy =>
    unfold close
    split
    next hco =>
      have hst := stage_setStage_self (hc ▸ hs.lt_length)
        (.closeLock (.finish (failedOutcome (c.job n) e)))
      have hb := core_breakOff (core_setStage hq n
        (.closeLock (.finish (failedOutcome (c.job n) e))))
      exact ⟨_, .closes (hl ▸ hco) hy,
        .trans (.quiet hb) (moves_afterBreakOff (t := .call n) hst)⟩
    next hco => exact hstay (.inl fun h => hco (hl.trans h))
  next hy =>
    have hy : e.endsConnection = false := by simpa using hy
    refine hstay (.inr ⟨hy, hx.resolve_left ?_⟩)
    rw [hy]
    nofun

theorem moves_failSending {waiter : Option Waiter} {e : Failure} (hs : c.Sends n waiter c₁)
    (he : IsSendFault e) (hx : e.endsConnection = true ∨ c.stage n = .lock) :
    c.Moves (c₁.failSending n waiter e) := by
  obtain ⟨d, hf, hm⟩ := exists_fails hs hx
  exact .trans (.single (.fail hs he hf)) hm

theorem moves_endWait {w : Waiter} {due : Nat} {r : Except Failure Reply}
    (hs : c.stage n = .await w due)
    (hr : c.correlator.outcome? w (due ≤ c.now) c.config.requestTimeout = some r) :
    c.Moves (c.endWait n w r) := by
  refine .one (.conclude hs hr) ?_
  unfold endWait
  rw [core_wakeDecided]
  cases r with
  | error e => rfl
  | ok reply =>
    have hj : (c.clearTimer n).job n = c.job n := rfl
    unfold conclude
    dsimp only
    rw [hj]
    split <;> rfl

theorem moves_awaitReply {w : Waiter} {due : Nat} (hs : c.stage n = .await w due) :
    c.Moves (c.awaitReply n w due) := by
  unfold awaitReply
  split
  next r hr => exact moves_endWait hs hr
  next => exact .quiet (core_setTimer c n due).symm

theorem moves_afterSent {s : Sending} (hs : c.stage n = .send s) :
    ((c.record (.sent n c.now)).yield.setStage n (c.afterSent s.waiter)).Moves
      (c.afterSending n s.waiter) := by
  have hq : (c.record (.sent n c.now)).yield.core =
      (((c.record (.sent n c.now)).clearTimer n).leaveWritePath).core :=
    (core_yield (core_clearTimer _ n).symm).trans (core_leaveWritePath _).symm
  have hn : n < c.calls.length := lt_of_stage_ne_dropped (by simp [hs])
  have hc : (((c.record (.sent n c.now)).clearTimer n).leaveWritePath).calls = c.calls :=
    (calls_eq hq.symm).trans rfl
  have hd : (((c.record (.sent n c.now)).clearTimer n).leaveWritePath).requestDue =
      c.requestDue :=
    (requestDue_eq hq.symm).trans rfl
  refine Moves.trans (.quiet (core_setStage hq n _)) ?_
  unfold afterSending
  dsimp only
  unfold afterSent
  cases s.waiter with
  | none => exact .quiet (core_finish _ _ _).symm
  | some w =>
    dsimp only
    rw [hd]
    exact moves_awaitReply (stage_setStage_self (hc ▸ hn) _)

theorem moves_afterSending {s : Sending} (hs : c.stage n = .send s) (hr : s.rest = []) :
    c.Moves (c.afterSending n s.waiter) :=
  .trans (.single (.sent hs hr)) (moves_afterSent hs)

theorem moves_holdSending {s : Sending} (hs : c.stage n = .send s) :
    c.Moves (c.holdSending n s) := by
  unfold holdSending
  split
  · exact moves_failSending (.later hs) (.inl ⟨_, rfl⟩) (.inl rfl)
  · exact .quiet (core_setTimer c n s.due).symm

theorem moves_writeOn {s : Sending} (hs : c.stage n = .send s) : c.Moves (c.writeOn n s) := by
  obtain ⟨out, ht, hb⟩ := c.peer.exists_taken_write s.rest
  have hn : n < c.calls.length := lt_of_stage_ne_dropped (by simp [hs])
  unfold writeOn
  generalize c.peer.write s.rest = w at ht hb
  obtain ⟨written, peer⟩ := w
  dsimp only at ht hb ⊢
  have hm : c.Moves ({ c with peer := peer }.sendRest n { s with rest := written.rest }) := by
    refine .one (.write hs hb) (core_setStage ?_ _ _)
    simp [core, ht]
  have hs' : ({ c with peer := peer }.sendRest n { s with rest := written.rest }).stage n =
      .send { s with rest := written.rest } := stage_setStage_self hn _
  refine hm.trans ?_
  generalize ({ c with peer := peer } : Client).sendRest n { s with rest := written.rest } = c'
    at hs' ⊢
  have hf : ∀ fault, c'.Moves (c'.failSending n s.waiter (.sendFailed fault)) := fun fault =>
    moves_failSending (Sends.later (s := { s with rest := written.rest }) hs') (.inl ⟨fault, rfl⟩)
      (.inl rfl)
  cases written with
  | all =>
    dsimp only
    split
    · exact moves_afterSending (s := { s with rest := [] }) hs' rfl
    · exact moves_holdSending hs'
    · exact hf _
  | waiting rest => exact moves_holdSending hs'
  | nothing rest => exact hf _
  | failed text rest => exact hf _

theorem Enters.frameOf_eq {m : ClientMessage} {waiter : Option Waiter}
    (h : c.Enters n m waiter c₁) (m' : ClientMessage) : c₁.frameOf? m' = c.frameOf? m' := by
  cases h <;> rfl

theorem Enters.half_eq {m : ClientMessage} {waiter : Option Waiter}
    (h : c.Enters n m waiter c₁) : c₁.write.half = c.write.half := by
  cases h <;> rfl

theorem Enters.requestDue_eq {m : ClientMessage} {waiter : Option Waiter}
    (h : c.Enters n m waiter c₁) : c₁.requestDue = c.requestDue := by
  cases h <;> rfl

theorem isSendFault_frameOf {m : ClientMessage} {e : Failure} (h : c.frameOf? m = .error e) :
    IsSendFault e := by
  unfold frameOf? Header.ofPayload? at h
  dsimp only at h
  split at h
  next e' he =>
    split at he
    · cases he
    · cases he; cases h; exact .inr (.inr ⟨_, rfl⟩)
  next =>
    split at h
    · cases h; exact .inr (.inr ⟨_, rfl⟩)
    · cases h

theorem moves_sendMessage {m : ClientMessage} {waiter : Option Waiter}
    (he : c.Enters n m waiter (c₁.record (.sending n m))) :
    c.Moves (c₁.sendMessage n waiter m) := by
  unfold sendMessage
  dsimp only
  split
  next e hf => exact moves_failSending (.atOnce he) (isSendFault_frameOf hf) (.inr he.stage_eq_lock)
  next bytes hf =>
    split
    next hw =>
      rw [he.frameOf_eq] at hf
      rw [he.half_eq] at hw
      have hm := Moves.one (.begin he hf hw) rfl
      rw [← he.requestDue_eq] at hm
      have hn : n < c.calls.length := (Sends.atOnce he).lt_length
      rw [← he.calls_eq] at hn
      exact hm.trans (moves_writeOn (stage_setStage_self hn _))
    next => exact moves_failSending (.atOnce he) (.inr (.inl rfl)) (.inr he.stage_eq_lock)

theorem moves_useWritePath (hs : c.stage n = .lock) (hh : c.holds (.call n) = true) :
    c.Moves (c.useWritePath n) := by
  have hp : (∀ op, c.job n ≠ .operation op) →
      c.Moves (c.leaveWritePath.finish n (.ok .nothing)) := fun hj =>
    .one (.pass hs hh hj) (core_setStage (core_leaveWritePath c).symm n _)
  unfold useWritePath
  split
  next op hj =>
    unfold request
    split
    next e hr =>
      exact .one (.turnAway hs hh hj hr) (core_setStage (core_leaveWritePath _).symm n _)
    next w correlator hr => exact moves_sendMessage (.request hs hh hj hr)
  next id hj => exact moves_sendMessage (.farewell hs hh hj)
  next hj _ => exact hp hj

theorem moves_goForWritePath (hs : c.stage n = .fresh) (hl : c.life = .connected)
    (hj : (∃ op, c.job n = .operation op) ∨ ∃ id, c.job n = .unsubscribe (some id)) :
    c.Moves (c.goForWritePath n) := by
  have hm := Moves.one (.lineUp hs hl hj) rfl
  have hn : n < c.calls.length := lt_of_stage_ne_dropped (by simp [hs])
  unfold goForWritePath
  dsimp only
  split
  next hh => exact hm.trans (moves_useWritePath (stage_setStage_self hn _) hh)
  next => exact hm

/-! ### The reader -/

theorem reader_route (c : Client) (f : Frame) : (c.route f).reader = c.reader := by
  have hr : ∀ (c : Client) id isError reply, (c.resolve id isError reply).reader = c.reader := by
    intro c id isError reply
    unfold resolve
    split
    · rfl
    · exact (reader_eq (core_wakeDecided _)).trans rfl
  have hd : ∀ (c : Client) note, (c.dispatch note).reader = c.reader := by
    intro c note
    unfold dispatch
    split <;> rfl
  unfold route
  dsimp only
  split
  · rfl
  · unfold routePayload
    split
    · rfl
    · split
      · rfl
      · split
        · split
          · exact hd _ _
          · rfl
        · exact hr _ _ _ _

theorem held_of_isAlive_eq_false (h : ¬ c.isAlive = true) : c.held = false := by
  unfold isAlive at h
  cases hh : c.held with
  | false => rfl
  | true => simp [hh] at h

theorem moves_closeReader {b : Frame.Buffer} (hr : c.reader = .reading b) :
    c.Moves c.closeReader := moves_close ⟨b, hr⟩

theorem moves_readFrames (fuel : Nat) {b₀ : Frame.Buffer} (b : Frame.Buffer)
    (hr : c.reader = .reading b₀) : c.Moves (c.readFrames fuel b) := by
  induction fuel generalizing c b with
  | zero => exact .one (.keepReading hr) rfl
  | succ fuel ih =>
    unfold readFrames
    split
    next f b' source _ =>
      have hq : c.Moves { c with source := source } := .quiet rfl
      split
      next ha =>
        have hr' : ({ c with source := source } : Client).reader = .reading b₀ := hr
        refine hq.trans (.trans (.one (.route hr' ha f) rfl) (ih _ ?_))
        rw [reader_route]
        exact hr
      next ha =>
        exact hq.trans (moves_endReader (.inr (held_of_isAlive_eq_false ha)) (.inr ⟨_, hr⟩))
    next b' source _ =>
      have hm : c.Moves { c with reader := .reading b' } := .single (.keepReading hr)
      exact hm.trans (.quiet rfl)
    next source _ _ _ =>
      have hq : c.Moves { c with source := source } := .quiet rfl
      split
      · exact hq.trans (moves_closeReader hr)
      next ha =>
        exact hq.trans (moves_endReader (.inr (held_of_isAlive_eq_false ha)) (.inr ⟨_, hr⟩))

theorem moves_runReader (c : Client) : c.Moves c.runReader := by
  unfold runReader
  split
  next b hr =>
    split
    · have hq : c.Moves { c with stopAsked := false } := .quiet rfl
      dsimp only
      split
      · exact hq.trans (moves_closeReader hr)
      next ha =>
        exact hq.trans (moves_endReader (.inr (held_of_isAlive_eq_false ha)) (.inr ⟨_, hr⟩))
    · exact moves_readFrames _ b hr
  next hr =>
    split
    next hh => exact moves_takeHalf (t := .reader) hr hh
    next => exact .refl c
  next hr => exact moves_shutHalf (t := .reader) hr
  · exact .refl c
  · exact .refl c

/-! ### Connecting -/

theorem moves_runHandshake {e : Handshake.Exchange} {due : Nat}
    (hs : c.stage n = .handshake e due) : c.Moves (c.runHandshake n e due) := by
  have hn : n < c.calls.length := lt_of_stage_ne_dropped (by simp [hs])
  unfold runHandshake
  split
  next session source peer hr =>
    refine .one (.establish hs hr) (core_setStage ?_ n _)
    exact Eq.trans rfl (core_wake ({ c with source := source, peer := peer }.accept session) _).symm
  next f source peer hr => exact .one (.miss hs hr (.inl rfl)) rfl
  next e' source peer hr =>
    dsimp only
    split
    next hd => exact .one (.miss hs hr (.inr ⟨⟨e', rfl⟩, hd, rfl⟩)) rfl
    next =>
      refine .one (.shake hs hr) (core_setStage (Eq.trans ?_ (core_setTimer _ n due).symm) n _)
      rfl

theorem moves_shakeHands {first : Except Failure (List UInt8)} (hs : c.stage n = .fresh)
    (hj : c.job n = .connect) (hu : c.write.half = .unused) (hb : c.opening = first) :
    c.Moves (c.shakeHands n first) := by
  have hn : n < c.calls.length := lt_of_stage_ne_dropped (by simp [hs])
  cases first with
  | error e => exact .one (.refuse hs hj hu hb) rfl
  | ok bytes =>
    exact .trans (.single (.connect hs hj hu hb)) (moves_runHandshake (stage_setStage_self hn _))

/-! ### Turns -/

theorem isConnected_iff (c : Client) : c.isConnected = true ↔ c.life = .connected := by
  unfold isConnected
  exact beq_iff_eq

theorem moves_startOperation {op : Operation} (hs : c.stage n = .fresh)
    (hj : c.job n = .operation op) : c.Moves (c.startOperation n op) := by
  unfold startOperation
  split
  next e hf => exact .one (.turnDown hs hj hf) rfl
  next =>
    split
    next hl => exact moves_goForWritePath hs ((isConnected_iff c).1 hl) (.inl ⟨op, hj⟩)
    next hl => exact .one (.tooLate hs hj fun h => hl ((isConnected_iff c).2 h)) rfl

theorem moves_startUnsubscribe {id : String} (hs : c.stage n = .fresh)
    (hj : c.job n = .unsubscribe (some id)) : c.Moves (c.startUnsubscribe n id) := by
  have hd : ∀ op, c.job n ≠ .operation op := by simp [hj]
  unfold startUnsubscribe
  split
  next ha =>
    have hm := Moves.one (.unroute hs hj ha) rfl
    dsimp only
    split
    next hl =>
      exact hm.trans (moves_goForWritePath hs ((isConnected_iff _).1 hl) (.inr ⟨id, hj⟩))
    next => exact hm.trans (.one (.leaveItAt hs hd (.inl rfl)) rfl)
  next => exact .one (.leaveItAt hs hd (.inl rfl)) rfl

theorem moves_runCall (c : Client) (n : Nat) : c.Moves (c.runCall n) := by
  unfold runCall
  split
  next hs =>
    split
    next hj =>
      split
      next hu => exact moves_shakeHands hs hj hu rfl
      next => exact .one (.leaveItAt hs (by simp [hj]) (.inr rfl)) rfl
    next op hj => exact moves_startOperation hs hj
    next id hj => exact moves_startUnsubscribe hs hj
    next hj => exact .one (.leaveItAt hs (by simp [hj]) (.inr rfl)) rfl
    next hj => exact moves_close ⟨hs, hj, rfl⟩
  next e due hs => exact moves_runHandshake hs
  next hs =>
    split
    next hh => exact moves_useWritePath hs hh
    next => exact .refl c
  next s hs => exact moves_writeOn hs
  next w due hs => exact moves_awaitReply hs
  next k hs =>
    split
    next hh => exact moves_takeHalf (t := .call n) hs hh
    next => exact .refl c
  next k hs => exact moves_shutHalf (t := .call n) hs
  next hs =>
    split
    next hr => exact .one (.joined hs hr) rfl
    next => exact .refl c
  · exact .refl c
  · exact .refl c

/-- **A turn is a series of moves.** -/
theorem Moves.turn (c : Client) (t : Task) : c.Moves (c.turn t) := by
  have hq : c.Moves { c with ready := c.ready.erase t } := .quiet rfl
  refine hq.trans ?_
  cases t with
  | reader => exact moves_runReader _
  | call n => exact moves_runCall _ n

/-! ### What happens from outside -/

theorem moves_cancelCall (c : Client) (n : Nat) : c.Moves (c.cancelCall n) := by
  unfold cancelCall
  dsimp only
  split
  next e due hs => exact .one (.abandon hs) rfl
  next hs =>
    refine .one (.dropLine (.inl hs)) (Eq.trans ?_ (core_withdraw _ _).symm)
    rfl
  next k hs =>
    refine .one (.dropLine (.inr ⟨k, hs⟩)) (Eq.trans ?_ (core_withdraw _ _).symm)
    rfl
  next s hs =>
    refine .one (.dropSend hs) (Eq.trans ?_ (core_leaveWritePath _).symm)
    refine Eq.trans ?_ (core_yield (core_leaveIfAny _ s.waiter).symm)
    cases s.waiter <;> rfl
  next w due hs =>
    refine .one (.dropWait hs) (Eq.trans ?_ (core_leave _ w).symm)
    rfl
  next k hs => exact .one (.dropShutdown hs) rfl
  next hs => exact .one (.dropIdle (.inl hs)) rfl
  next hs => exact .one (.dropIdle (.inr hs)) rfl
  · exact .refl c
  · exact .refl c

theorem calls_cancelCall (c : Client) (n : Nat) :
    (c.cancelCall n).calls =
      if (c.stage n).isOpen then (c.setStage n .dropped).calls else c.calls := by
  unfold cancelCall
  dsimp only
  split <;> simp only [*, Stage.isOpen, if_true]
  next => rfl
  next => exact (calls_eq (core_withdraw _ _)).trans rfl
  next => exact (calls_eq (core_withdraw _ _)).trans rfl
  next s _ =>
    refine (calls_eq (core_leaveWritePath _)).trans ?_
    refine (calls_eq (core_yield (core_leaveIfAny _ s.waiter))).trans ?_
    exact (calls_forgetAny _ _).trans rfl
  next => exact (calls_eq (core_leave _ _)).trans rfl
  next => rfl
  next => rfl
  next => rfl
  next => rfl
  next => rfl

theorem stage_congr {c' : Client} (h : c.calls = c'.calls) (n : Nat) : c.stage n = c'.stage n := by
  unfold stage; rw [h]

theorem isOpen_cancelCall (c : Client) (n i : Nat) :
    ((c.cancelCall n).stage i).isOpen = ((c.stage i).isOpen && i != n) := by
  have hc := calls_cancelCall c n
  by_cases ho : (c.stage n).isOpen = true
  · have hn : n < c.calls.length := lt_of_stage_ne_dropped fun h => by simp [h, Stage.isOpen] at ho
    rw [if_pos ho] at hc
    rw [stage_congr hc, stage_setStage]
    by_cases hi : i = n
    · simp [hi, hn, Stage.isOpen]
    · simp [hi]
  · rw [if_neg ho] at hc
    rw [stage_congr hc]
    by_cases hi : i = n
    · subst hi; simpa using ho
    · simp [hi]

theorem moves_cancelCalls (l : List Nat) (c : Client) :
    c.Moves (l.foldl cancelCall c) ∧
      ∀ i, ((l.foldl cancelCall c).stage i).isOpen = ((c.stage i).isOpen && decide (i ∉ l)) := by
  induction l generalizing c with
  | nil => exact ⟨.refl c, by simp⟩
  | cons n l ih =>
    obtain ⟨hm, ho⟩ := ih (c.cancelCall n)
    refine ⟨(moves_cancelCall c n).trans hm, fun i => ?_⟩
    rw [List.foldl_cons, ho, isOpen_cancelCall]
    by_cases hi : i = n
    · simp [hi]
    · have hb : (i != n) = true := by simpa using hi
      simp [hi, hb]

theorem moves_letGo (hs : ∀ n, (c.stage n).isOpen = false) : c.Moves c.letGo := by
  unfold letGo
  split
  next hh =>
    have hq : ({ c with held := false } : Client).core =
        ({ c with held := false } : Client).askStop.core := (core_askStop _).symm
    have hr := reader_eq hq
    have ha : ({ c with held := false } : Client).askStop.isAlive =
        (c.reader == .closeLock || c.reader == .closeShutdown) := by
      have hh' : ({ c with held := false } : Client).askStop.held = false := by
        have hc := congrArg held hq
        exact hc.symm
      unfold isAlive
      rw [hh', ← hr]
      rfl
    refine .one (.letGo hs hh) ?_
    dsimp only
    rw [ha]
    by_cases hx : c.reader = .closeLock ∨ c.reader = .closeShutdown
    · have hb : (c.reader == .closeLock || c.reader == .closeShutdown) = true := by simpa using hx
      rw [if_pos hx, if_pos hb]
      exact hq
    · have hb : ¬ (c.reader == .closeLock || c.reader == .closeShutdown) = true := by
        simpa using hx
      rw [if_neg hx, if_neg hb]
      exact core_setWrite hq WritePath.dropHalf
  next => exact .refl c

theorem core_wakeWriters (c : Client) : c.wakeWriters.core = c.core := by
  unfold wakeWriters
  dsimp only
  split
  · rw [core_wake, core_wakeCalls]
  · exact core_wakeCalls _ _

theorem core_wakeReaders (c : Client) : c.wakeReaders.core = c.core := by
  unfold wakeReaders
  dsimp only
  split
  · rw [core_wake, core_wakeCalls]
  · exact core_wakeCalls _ _

theorem core_fireTimers (c : Client) : c.fireTimers.core = c.core := by
  unfold fireTimers
  dsimp only
  rw [core_foldl fun (c : Client) (t : Timer) => core_wake c (.call t.call)]
  rfl

theorem core_takeLeave (c : Client) : c.takeLeave.core = c.core := by
  unfold takeLeave
  split
  · exact core_askStop c
  · rfl

/-- **Whatever happens from outside is a series of moves**, unless it is the start of a call. -/
theorem Moves.act (c : Client) {a : Action} (ha : ∀ job, a ≠ .start job) : c.Moves (c.act a) := by
  cases a with
  | start job => exact absurd rfl (ha job)
  | cancel n => exact moves_cancelCall c n
  | feed more =>
    refine .quiet (Eq.trans ?_ (core_wakeReaders _).symm)
    rfl
  | change d =>
    refine .quiet (Eq.trans ?_ (core_wakeWriters _).symm)
    rfl
  | advance millis => exact .one (.tick c millis) (core_fireTimers _).symm
  | part => exact .quiet (core_takeLeave c).symm
  | drop =>
    obtain ⟨hm, ho⟩ := moves_cancelCalls (List.range c.calls.length) c
    refine hm.trans (moves_letGo fun i => ?_)
    rw [ho]
    by_cases hi : i < c.calls.length
    · simp [hi]
    · have hd : c.stage i = .dropped := by
        simp [stage, List.getElem?_eq_none (Nat.le_of_not_lt hi)]
      simp [hd, Stage.isOpen]

/-- What every move preserves is preserved by a series of moves. -/
theorem Moves.induct {P : Client → Prop} (hp : ∀ {c c' : Client}, c.Move c' → P c → P c')
    {c' : Client} (h : c.Moves c') (hc : P c) : P c' := by
  induction h with
  | refl => exact hc
  | tail _ hm ih => exact hp hm ih

/-- The client once a call has been added to it. -/
def addCall (c : Client) (job : Job) : Client := { c with calls := c.calls ++ [Call.mk job .fresh] }

theorem stage_addCall (c : Client) (job : Job) (n : Nat) :
    (c.addCall job).stage n = c.stage n ∨ (c.addCall job).stage n = .fresh := by
  unfold stage addCall
  rw [List.getElem?_append]
  split
  · exact .inl rfl
  next hn =>
    rw [List.getElem?_eq_none (Nat.le_of_not_lt hn)]
    cases n - c.calls.length
    · exact .inr rfl
    · exact .inl rfl

theorem stage_addCall_of_lt (hn : n < c.calls.length) (job : Job) :
    (c.addCall job).stage n = c.stage n := by
  unfold stage addCall
  rw [List.getElem?_append_left hn]

/-- **Taking up frames is a series of moves.** -/
theorem moves_overlook (c : Client) (count : Nat) : c.Moves (c.overlook count) := by
  unfold overlook
  split
  next b hr => exact moves_readFrames count b hr
  next => exact .refl c

/-- What every move and the start of a call preserve lasts. -/
theorem Onward.induct {P : Client → Prop} (hp : ∀ {c c' : Client}, c.Move c' → P c → P c')
    (hs : ∀ {c : Client} (job : Job), P c → P (c.addCall job)) {c' : Client} (h : c.Onward c')
    (hc : P c) : P c' := by
  induction h with
  | refl => exact hc
  | @tail c₁ c₂ _ hg ih =>
    cases hg with
    | overlook count => exact (moves_overlook c₁ count).induct hp ih
    | follows hf =>
      cases hf with
      | turn t => exact (Moves.turn c₁ t).induct hp ih
      | act a =>
        by_cases ha : ∃ job, a = .start job
        · obtain ⟨job, rfl⟩ := ha
          exact hp (.quiet (core_wake (c₁.addCall job) _).symm) (hs job ih)
        · exact (Moves.act c₁ fun job hj => ha ⟨job, hj⟩).induct hp ih

/-- **Invariants.** What holds at first and is preserved by every move and by the start of a call
holds in every possible state. -/
theorem Possible.induct {config : Config} {P : Client → Prop}
    (hp : ∀ {c c' : Client}, c.Move c' → P c → P c')
    (hs : ∀ {c : Client} (job : Job), P c → P (c.addCall job)) (h₀ : P (Client.initial config))
    (h : Possible config c) : P c :=
  Onward.induct hp hs h h₀

end DocWire.Client
