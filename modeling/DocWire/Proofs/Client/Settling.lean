import Mathlib.Data.List.Induction
import DocWire.Proofs.Client.Alertness
import DocWire.Proofs.Client.Potential

/-! # All tasks come to wait

A turn takes a client nearer to its end or wakes nobody (`calms_turn`). Since the line of tasks that
can go on is never longer than the number of tasks, this bounds the number of turns until all of
them wait, and `settle` takes that many (`settle_ready`). -/

namespace DocWire.Client

open DocWire.Correlator (Waiter Slot)

variable {c c' c₁ d : Client} {n count : Nat} {t : Task} {k : AfterClose}

/-- A client has come nearer to its end, or nobody has been woken. -/
def Calms (c c' : Client) : Prop :=
  c'.potential < c.potential ∨ c'.potential ≤ c.potential ∧ c'.ready = c.ready

namespace Calms

theorem trans (h : c.Calms d) (h' : d.Calms c') : c.Calms c' := by
  rcases h with h | ⟨h, hr⟩ <;> rcases h' with h' | ⟨h', hr'⟩
  · exact .inl (Nat.lt_trans h' h)
  · exact .inl (Nat.lt_of_le_of_lt h' h)
  · exact .inl (Nat.lt_of_lt_of_le h' h)
  · exact .inr ⟨Nat.le_trans h' h, hr'.trans hr⟩

/-- Whatever comes after a client has come nearer to its end. -/
theorem of_lt (h : d.potential < c.potential) (hm : d.Moves c') : c.Calms c' :=
  .inl (Nat.lt_of_le_of_lt hm.potential_le h)

theorem still (hm : c.Moves c') (hr : c'.ready = c.ready) : c.Calms c' := .inr ⟨hm.potential_le, hr⟩

/-- Something that the potential does not tell, and that wakes nobody. -/
theorem same (hp : c'.potential = c.potential) (hr : c'.ready = c.ready) : c.Calms c' :=
  .inr ⟨Nat.le_of_eq hp, hr⟩

theorem refl (c : Client) : c.Calms c := .same rfl rfl

end Calms

theorem ready_setTimer (c : Client) (n due : Nat) : (c.setTimer n due).ready = c.ready := by
  unfold setTimer
  split <;> rfl

/-! ### Closing -/

theorem potential_endReader_lt (hr : 0 < c.reader.rank) : c.endReader.potential < c.potential := by
  have hp := potential_endReader (c := c) (d := { c with
    reader := .ended, write := if c.held then c.write else c.write.dropHalf }) rfl rfl rfl
  rw [potential_eq (core_endReader c)]
  omega

theorem calms_afterClose (hs : c.InCloseLock k t ∨ c.InShutdown k t) (hl : c.life = .closed) :
    c.Calms (c.afterClose t k) := by
  cases t with
  | reader =>
    refine .inl (potential_endReader_lt ?_)
    have hr : c.reader = .closeLock ∨ c.reader = .closeShutdown := hs
    rcases hr with hr | hr <;> simp [hr, ReaderStage.rank]
  | call n =>
    obtain ⟨s, -, -, hr⟩ := core_afterClose c n k
    exact .still (moves_afterClose hs hl) hr

theorem calms_shutHalf (hs : c.InShutdown k t) : c.Calms (c.shutHalf t k) := by
  unfold shutHalf Stream.Sink.askShutdown
  split
  next h =>
    obtain ⟨-, rfl⟩ := Prod.mk.inj h
    exact .same rfl rfl
  next h =>
    obtain ⟨-, rfl⟩ := Prod.mk.inj h
    refine Calms.trans (d := { c with
      peer := { c.peer with shutdownAsked := true }
      write := { c.write with half := .gone }
      life := .closed }) (.same rfl rfl) (calms_afterClose (.inr ?_) rfl)
    cases t <;> exact hs

theorem potential_takeHalf_lt (hs : c.InCloseLock k t) (hh : c.holds t = true) :
    (c.takeHalf t k).potential < c.potential := by
  unfold takeHalf
  split
  next hw =>
    have hq := core_release { c with write := { c.write with half := .leaving } }
    have hl : (({ c with write := { c.write with half := .leaving } } : Client).release.toShutdown k
        t).potential < c.potential := by
      refine potential_toShutdown_lt hs ?_ ?_ ?_
      · exact (calls_eq hq).trans rfl
      · exact (reader_eq hq).trans rfl
      · exact (correlator_eq hq).trans rfl
    refine Nat.lt_of_le_of_lt (moves_shutHalf (inShutdown_toShutdown ?_)).potential_le hl
    refine inCloseLock_congr hq.symm ?_
    cases t <;> exact hs
  next hw =>
    have hq := core_setLife (core_release c) .closed
    have hs' := inCloseLock_congr (k := k) (t := t) hq.symm (by cases t <;> exact hs)
    have hp : ({ c.release with life := .closed } : Client).potential = c.potential :=
      (potential_eq hq).trans rfl
    cases t with
    | reader =>
      rw [← hp]
      refine potential_endReader_lt ?_
      have hr : ({ c.release with life := .closed } : Client).reader = .closeLock := hs'
      rw [hr]
      decide
    | call n =>
      obtain ⟨s, hk, he, -⟩ := core_afterClose { c.release with life := .closed } n k
      have hr := rank_endsIn hk
      rw [potential_eq he, ← hp]
      refine potential_stage_lt hs' nofun rfl rfl rfl ?_
      exact Nat.lt_of_le_of_lt hr (by simp [Stage.rank])

theorem calms_close (h : c.MayClose k t) : c.Calms (c.close t k) := by
  unfold close
  split
  next hl =>
    exact .of_lt (potential_close_lt h) (moves_afterBreakOff (inCloseLock_toCloseLock h))
  next hl =>
    cases t with
    | reader =>
      obtain ⟨b, hb⟩ := h
      exact .inl (potential_endReader_lt (by simp [hb, ReaderStage.rank]))
    | call n =>
      obtain ⟨s, -, -, hr⟩ := core_afterClose c n k
      have hm := moves_close h
      unfold close at hm
      rw [if_neg hl] at hm
      exact .still hm hr

/-! ### Sending -/

theorem calms_awaitReply {w : Waiter} {due : Nat} (hs : c.stage n = .await w due) :
    c.Calms (c.awaitReply n w due) := by
  unfold awaitReply
  split
  next r hr =>
    refine .inl ?_
    have hq : (c.endWait n w r).potential = ((c.clearTimer n).conclude n w r).potential :=
      potential_eq (core_wakeDecided _)
    rw [hq]
    exact potential_conclude (c := c.clearTimer n) hs
  next => exact .same (potential_eq (core_setTimer c n due)) (ready_setTimer c n due)

theorem potential_failSending_lt {waiter : Option Waiter} {e : Failure}
    (hs : c.Sends n waiter c₁) (hx : e.endsConnection = true ∨ c.stage n = .lock) :
    (c₁.failSending n waiter e).potential < c.potential := by
  obtain ⟨d, hf, hm⟩ := exists_fails hs hx
  exact Nat.lt_of_le_of_lt hm.potential_le (potential_fails hs hf)

theorem calms_holdSending {s : Sending} (hs : c.stage n = .send s) :
    c.Calms (c.holdSending n s) := by
  unfold holdSending
  split
  · exact .inl (potential_failSending_lt (.later hs) (.inl rfl))
  · exact .same (potential_eq (core_setTimer c n s.due)) (ready_setTimer c n s.due)

theorem calms_writeOn {s : Sending} (hs : c.stage n = .send s) : c.Calms (c.writeOn n s) := by
  have hn : n < c.calls.length := lt_of_stage_ne_dropped (by simp [hs])
  unfold writeOn
  generalize c.peer.write s.rest = w
  obtain ⟨written, peer⟩ := w
  dsimp only
  have hr : c.Calms ({ c with peer := peer }.sendRest n { s with rest := written.rest }) := by
    refine .inr ⟨?_, rfl⟩
    exact potential_le_setStage hs nofun rfl rfl rfl (by simp [Stage.rank])
  have hs' : ({ c with peer := peer }.sendRest n { s with rest := written.rest }).stage n =
      .send { s with rest := written.rest } := stage_setStage_self hn _
  refine hr.trans ?_
  generalize ({ c with peer := peer } : Client).sendRest n { s with rest := written.rest } = c'
    at hs' ⊢
  have hf : ∀ fault, c'.Calms (c'.failSending n s.waiter (.sendFailed fault)) := fun fault =>
    .inl (potential_failSending_lt (Sends.later (s := { s with rest := written.rest }) hs')
      (.inl rfl))
  cases written with
  | all =>
    dsimp only
    split
    · exact .of_lt (potential_sent hs') (moves_afterSent hs')
    · exact calms_holdSending hs'
    · exact hf _
  | waiting rest => exact calms_holdSending hs'
  | nothing rest => exact hf _
  | failed text rest => exact hf _

theorem potential_sendMessage_lt {m : ClientMessage} {waiter : Option Waiter}
    (he : c.Enters n m waiter (c₁.record (.sending n m))) :
    (c₁.sendMessage n waiter m).potential < c.potential := by
  unfold sendMessage
  dsimp only
  split
  next e _ => exact potential_failSending_lt (.atOnce he) (.inr he.stage_eq_lock)
  next bytes _ =>
    split
    next =>
      have hn : n < c.calls.length := (Sends.atOnce he).lt_length
      rw [← he.calls_eq] at hn
      exact Nat.lt_of_le_of_lt (moves_writeOn (stage_setStage_self hn _)).potential_le
        (potential_begin he)
    next => exact potential_failSending_lt (.atOnce he) (.inr he.stage_eq_lock)

theorem potential_useWritePath_lt (hs : c.stage n = .lock) (hh : c.holds (.call n) = true) :
    (c.useWritePath n).potential < c.potential := by
  have hl : ∀ {d : Client} {r}, d.calls = c.calls → d.reader = c.reader →
      d.correlator = c.correlator → (d.leaveWritePath.finish n r).potential < c.potential := by
    intro d r hc hr hk
    have hq : (d.leaveWritePath.finish n r).core = (d.yield.setStage n (.done r)).core :=
      core_setStage (core_leaveWritePath d) n _
    rw [potential_eq hq]
    exact potential_stage_lt hs nofun hc hr hk (by simp [Stage.rank])
  unfold useWritePath
  split
  next op hj =>
    unfold request
    split
    next e hr => exact hl rfl rfl rfl
    next w correlator hr => exact potential_sendMessage_lt (.request hs hh hj hr)
  next id hj => exact potential_sendMessage_lt (.farewell hs hh hj)
  next => exact hl rfl rfl rfl

theorem calms_goForWritePath (hs : c.stage n = .fresh) : c.Calms (c.goForWritePath n) := by
  have hn : n < c.calls.length := lt_of_stage_ne_dropped (by simp [hs])
  have hl : ({ c with write := c.write.acquire (.call n) }.setStage n .lock).potential <
      c.potential := potential_stage_lt hs nofun rfl rfl rfl (by simp [Stage.rank])
  unfold goForWritePath
  dsimp only
  split
  next hh => exact .of_lt hl (moves_useWritePath (stage_setStage_self hn _) hh)
  next => exact .inl hl

/-! ### The reader -/

theorem calms_route (c : Client) (f : Frame) : c.Calms (c.route f) := by
  have hd : ∀ (c : Client) note, c.Calms (c.dispatch note) := by
    intro c note
    unfold dispatch
    split <;> exact .same rfl rfl
  have hr : ∀ (c : Client) id isError reply, c.Calms (c.resolve id isError reply) := by
    intro c id isError reply
    cases hl : c.correlator.slots.lookup id with
    | some slot => exact .inl (potential_resolve_lt hl)
    | none =>
      unfold resolve Correlator.take
      rw [hl]
      exact .refl c
  refine Calms.trans (d := c.record (.routed f)) (.same rfl rfl) ?_
  unfold route routePayload
  dsimp only
  split
  · exact .refl _
  · split
    · exact .refl _
    · split
      · exact .refl _
      · split
        · split
          · exact hd _ _
          · exact .refl _
        · exact hr _ _ _ _

theorem calms_readFrames (fuel : Nat) {b₀ : Frame.Buffer} (b : Frame.Buffer)
    (hr : c.reader = .reading b₀) : c.Calms (c.readFrames fuel b) := by
  have he : ∀ {d : Client}, d.reader = .reading b₀ → d.Calms d.endReader := fun hd =>
    .inl (potential_endReader_lt (by simp [hd, ReaderStage.rank]))
  have hk : ∀ {b'}, ({ c with reader := .reading b' } : Client).potential = c.potential := by
    intro b'
    unfold potential
    rw [hr]
    rfl
  induction fuel generalizing c b with
  | zero => exact .same hk rfl
  | succ fuel ih =>
    unfold readFrames
    split
    next f b' source _ =>
      have hq : c.Calms { c with source := source } := .same rfl rfl
      split
      next =>
        have hr' : (({ c with source := source } : Client).route f).reader = .reading b₀ :=
          (reader_route _ f).trans hr
        refine hq.trans ((calms_route _ f).trans (ih _ hr' ?_))
        intro b'
        unfold potential
        rw [hr']
        rfl
      next => exact hq.trans (he hr)
    next b' source _ => exact .same ((potential_eq rfl).trans hk) rfl
    next source _ _ _ =>
      have hq : c.Calms { c with source := source } := .same rfl rfl
      split
      · exact hq.trans (calms_close (t := .reader) ⟨b₀, hr⟩)
      next => exact hq.trans (he hr)

theorem calms_runReader (c : Client) : c.Calms c.runReader := by
  unfold runReader
  split
  next b hr =>
    split
    · have hq : c.Calms { c with stopAsked := false } := .same rfl rfl
      dsimp only
      split
      · exact hq.trans (calms_close (t := .reader) ⟨b, hr⟩)
      next =>
        refine hq.trans (.inl (potential_endReader_lt ?_))
        have hr' : ({ c with stopAsked := false } : Client).reader = .reading b := hr
        rw [hr']
        exact Nat.succ_pos _
    · exact calms_readFrames _ b hr
  next hr =>
    split
    next hh => exact .inl (potential_takeHalf_lt (t := .reader) hr hh)
    next => exact .refl c
  next hr => exact calms_shutHalf (t := .reader) hr
  · exact .refl c
  · exact .refl c

/-! ### Calls -/

theorem calms_runHandshake {e : Handshake.Exchange} {due : Nat}
    (hs : c.stage n = .handshake e due) : c.Calms (c.runHandshake n e due) := by
  unfold runHandshake
  split
  next session source peer hr =>
    have hq := core_setStage
      (core_wake ({ c with source := source, peer := peer }.accept session) .reader) n
      (.done (.ok (.connected session)))
    refine .inl ?_
    rw [potential_eq ((core_finish _ _ _).trans hq)]
    exact potential_establish_lt (d := { c with source := source, peer := peer }) hs rfl rfl
  next => exact .inl (potential_dropStream_lt hs nofun rfl rfl (by simp [Stage.rank]))
  next e' source peer hr =>
    dsimp only
    split
    next => exact .inl (potential_dropStream_lt hs nofun rfl rfl (by simp [Stage.rank]))
    next =>
      have hq := core_setStage
        (core_setTimer { c with source := source, peer := peer } n due) n (.handshake e' due)
      refine .inr ⟨?_, ready_setTimer _ _ _⟩
      rw [potential_eq hq]
      exact potential_le_setStage hs nofun rfl rfl rfl (by simp [Stage.rank])

theorem calms_shakeHands {first : Except Failure (List UInt8)} (hs : c.stage n = .fresh) :
    c.Calms (c.shakeHands n first) := by
  have hn : n < c.calls.length := lt_of_stage_ne_dropped (by simp [hs])
  cases first with
  | error e => exact .inl (potential_dropStream_lt hs nofun rfl rfl (by simp [Stage.rank]))
  | ok bytes =>
    refine .of_lt (potential_stage_lt hs nofun ?_ ?_ ?_ ?_)
      (moves_runHandshake (stage_setStage_self ?_ _))
    all_goals first | rfl | exact hn | simp [Stage.rank]

theorem calms_finish (hs : c.stage n = .fresh) (r : Except Failure Outcome) :
    c.Calms (c.finish n r) :=
  .inl (potential_stage_lt (d := c.clearTimer n) hs nofun rfl rfl rfl (by simp [Stage.rank]))

theorem calms_runFresh (hs : c.stage n = .fresh) : c.Calms (c.runCall n) := by
  unfold runCall
  rw [hs]
  dsimp only
  split
  next hj =>
    split
    next => exact calms_shakeHands hs
    next => exact calms_finish hs _
  next op hj =>
    unfold startOperation
    split
    · exact calms_finish hs _
    · split
      · exact calms_goForWritePath hs
      · exact calms_finish hs _
  next id hj =>
    unfold startUnsubscribe
    split
    · have hq : c.Calms { c.record (.unsubscribed id) with
          routes := (c.routes.unsubscribe id).2 } := .same rfl rfl
      dsimp only
      split
      · exact hq.trans (calms_goForWritePath hs)
      · exact hq.trans (calms_finish hs _)
    · exact calms_finish hs _
  next => exact calms_finish hs _
  next hj => exact calms_close (t := .call n) ⟨hs, hj, rfl⟩

theorem calms_runCall (c : Client) (n : Nat) : c.Calms (c.runCall n) := by
  cases hs : c.stage n with
  | fresh => exact calms_runFresh hs
  | _ => ?_
  all_goals
    unfold runCall
    rw [hs]
    dsimp only
  · exact calms_runHandshake hs
  · split
    next hh => exact .inl (potential_useWritePath_lt hs hh)
    next => exact .refl c
  · exact calms_writeOn hs
  · exact calms_awaitReply hs
  · split
    next hh => exact .inl (potential_takeHalf_lt (t := .call n) hs hh)
    next => exact .refl c
  · exact calms_shutHalf (t := .call n) hs
  · split
    next => exact .inl (potential_stage_lt hs nofun rfl rfl rfl (by simp [Stage.rank]))
    next => exact .refl c
  · exact .refl c
  · exact .refl c

/-- **A turn takes a client nearer to its end, or wakes nobody.** -/
theorem calms_turn (c : Client) (t : Task) :
    Calms { c with ready := c.ready.erase t } (c.turn t) := by
  cases t with
  | reader => exact calms_runReader _
  | call n => exact calms_runCall _ n

/-! ### Settling -/

/-- **Every turn of a task that can go on leaves less to do.** -/
theorem Alert.work_turn_lt (h : c.Alert count none) (ht : t ∈ c.ready) :
    (c.turn t).work < c.work := by
  have hl := (h.turn t).length_ready_le
  have hp := List.length_pos_of_mem ht
  have he : (c.ready.erase t).length = c.ready.length - 1 := by
    rw [List.length_erase, if_pos ht]
  have hc : c.calls.length = count := h.length
  have hc' : (c.turn t).calls.length = count := (h.turn t).length
  have hq : ({ c with ready := c.ready.erase t } : Client).potential = c.potential := rfl
  unfold work
  rw [hc, hc']
  rcases calms_turn c t with hlt | ⟨hle, hr⟩
  · rw [hq] at hlt
    have hm : (count + 2) * ((c.turn t).potential + 1) ≤ (count + 2) * c.potential :=
      Nat.mul_le_mul_left _ hlt
    rw [Nat.mul_add_one] at hm
    omega
  · rw [hq] at hle
    have hm : (count + 2) * (c.turn t).potential ≤ (count + 2) * c.potential :=
      Nat.mul_le_mul_left _ hle
    have hr' : (c.turn t).ready.length = c.ready.length - 1 := by rw [hr, ← he]
    omega

theorem Alert.ready_settleFor {fuel : Nat} (h : c.Alert count none) (hf : c.work ≤ fuel) :
    (c.settleFor fuel).ready = [] := by
  induction fuel generalizing c with
  | zero =>
    have hw : c.ready.length + (c.calls.length + 2) * c.potential ≤ 0 := hf
    have hr : c.ready.length = 0 := by omega
    exact List.eq_nil_of_length_eq_zero hr
  | succ fuel ih =>
    unfold settleFor
    split
    next hr => exact hr
    next t l hr =>
      have hw := h.work_turn_lt (t := t) (by rw [hr]; exact List.mem_cons_self)
      exact ih (h.turn t) (by omega)

/-- **Settling lets every task go on until it has to wait.** -/
theorem Possible.ready_settle {config : Config} (h : Possible config c) :
    c.settle.ready = [] := h.alert.ready_settleFor (Nat.le_refl _)

/-- After everything that happens from outside, all tasks wait. -/
theorem ready_performAll (config : Config) (as : List Action) :
    ((Client.initial config).performAll as).ready = [] := by
  induction as using List.reverseRecOn with
  | nil => rfl
  | append_singleton as a _ =>
    have hr := (reachable_performAll config as).possible.onward ((Onward.refl _).act a)
    unfold performAll at hr ⊢
    rw [List.foldl_append]
    exact hr.ready_settle

end DocWire.Client
