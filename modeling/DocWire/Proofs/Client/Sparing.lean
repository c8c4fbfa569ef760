import DocWire.Proofs.Client.Draining
import DocWire.Proofs.Client.Onward

/-! # What a call leaves alone

A call that takes its turn works on what is its own: its stage, its timer, its slot and the route of
its subscription. It leaves everything else alone (`Spares`): the stream and the reader, the life of
the connection, the writing half, and the slots and routes of all other ids. There are two
exceptions. One is a call that closes the connection on purpose. The other is a call whose sending
fails in a way that ends the connection (`Breaks`), and this is then its outcome
(`Lawful.fares_turn`). -/

namespace DocWire

open DocWire.Correlator (Waiter)

/-- Whether an incident is about the connection, and not the doing of one call: a frame, what a
callback is given, and closing. -/
def Incident.OfConnection : Incident → Prop
  | .routed _ | .notified _ _ | .closing => True
  | _ => False

/-- Whether a call has come to an outcome, or been given up before it could return it. -/
def Phase.Settles (r : Except Failure Outcome) : Phase → Prop
  | .failing r' | .ended r' => r' = r
  | .dropped => True
  | _ => False

theorem Phase.Settles.isSettled {r : Except Failure Outcome} {p : Phase} (h : p.Settles r) :
    p.IsSettled := by
  cases p <;> trivial

theorem Phase.Settles.fades {r : Except Failure Outcome} {p p' : Phase} (h : p.Settles r)
    (hf : p.Fades p') : p'.Settles r := by
  cases hf with
  | refl => exact h
  | ended r' => exact h.elim
  | dropped => exact h.elim
  | closed r' => exact h
  | given r' => trivial

namespace Client

variable {b c c' c₁ : Client} {n : Nat} {waiter : Option Waiter} {e : Failure}
  {r : Except Failure Outcome} {id : String}

/-! ### Outcomes stay -/

theorem Move.settles (hm : c.Move c') (h : (c.phase n).Settles r) : (c'.phase n).Settles r :=
  h.fades (hm.phase_fades h.isSettled)

/-- **The outcome of a call is not changed any more.** -/
theorem Onward.settles (h' : c.Onward c') (h : (c.phase n).Settles r) : (c'.phase n).Settles r :=
  h'.induct (P := fun d => (d.phase n).Settles r) Move.settles
    (fun job hx => hx.fades ((Aside.addCall _ job).phase n)) h

/-- The sending of a call has failed in a way that ends the connection, and this is its outcome. -/
def Breaks (c : Client) (n : Nat) : Prop :=
  ∃ e : Failure, e.endsConnection = true ∧ .unsent n e ∈ c.journal ∧
    (c.phase n).Settles (failedOutcome (c.job n) e)

theorem Breaks.move (hm : c.Move c') (h : c.Breaks n) : c'.Breaks n := by
  obtain ⟨e, he, hu, hp⟩ := h
  obtain ⟨l, hj, -⟩ := hm.adds
  refine ⟨e, he, hj ▸ List.mem_append_left l hu, ?_⟩
  rw [hm.job_eq]
  exact hm.settles hp

theorem breaks_failSending (hs : c.Sends n waiter c₁) (he : e.endsConnection = true) :
    (c₁.failSending n waiter e).Breaks n := by
  obtain ⟨d, hf, hm⟩ := exists_fails hs (.inl he)
  refine hm.induct (P := fun d => d.Breaks n) Breaks.move ⟨e, he, ?_, ?_⟩
  · obtain ⟨l, hj, -⟩ := hf.journal_eq
    simp [hj]
  · have hc := (calls_forgetAny (c₁.record (.unsent n e)).yield waiter).trans hs.calls_eq
    have hn : n < ((c₁.record (.unsent n e)).yield.forgetAny waiter).calls.length := by
      rw [hc]
      exact hs.lt_length
    cases hf with
    | ends _ =>
      rw [phase_setStage_self hn, job_setStage, job_congr hc]
      rfl
    | closes _ =>
      have hp := phase_setStage_self hn (.closeLock (.finish (failedOutcome (c.job n) e)))
      have hj := (job_setStage ((c₁.record (.unsent n e)).yield.forgetAny waiter) n n
        (.closeLock (.finish (failedOutcome (c.job n) e)))).trans (job_congr hc n)
      refine Eq.mpr (congrArg₂ (fun p j => Phase.Settles (failedOutcome j e) p) hp hj) ?_
      rfl

/-! ### Leaving alone -/

/-- What there is to a client besides its calls: the stream and the reader, the life of the
connection, and the writing half. -/
def keel (c : Client) : Client :=
  { initial c.config with
    source := c.source
    held := c.held
    life := c.life
    session := c.session
    stopAsked := c.stopAsked
    reader := c.reader
    write := { WritePath.unused with half := c.write.half } }

theorem life_of_keel (h : c.keel = c'.keel) : c.life = c'.life := by
  have hk := congrArg life h
  exact hk

theorem half_of_keel (h : c.keel = c'.keel) : c.write.half = c'.write.half := by
  have hk := congrArg (fun d : Client => d.write.half) h
  exact hk

/-- Whether an id is that of a call: it has been registered under it, or is to close its
subscription. -/
def Owns (c : Client) (n : Nat) (id : String) : Prop :=
  .registered n id ∈ c.journal ∨ c.job n = .unsubscribe (some id)

/-- A call works on what is its own. -/
structure Spares (n : Nat) (b c : Client) : Prop where
  keel : c.keel = b.keel
  job : c.job n = b.job n
  journal : ∃ l, c.journal = b.journal ++ l ∧ ∀ i ∈ l, ¬ i.OfConnection
  slots : ∀ id, ¬ c.Owns n id → c.correlator.slots.lookup id = b.correlator.slots.lookup id
  routes : ∀ id, ¬ c.Owns n id → c.routes.get? id = b.routes.get? id

namespace Spares

theorem refl (n : Nat) (c : Client) : Spares n c c :=
  ⟨rfl, rfl, ⟨[], by simp, nofun⟩, fun _ _ => rfl, fun _ _ => rfl⟩

theorem owns (h : Spares n c c') (hn : ¬ c'.Owns n id) : ¬ c.Owns n id := by
  obtain ⟨l, hj, -⟩ := h.journal
  rintro (hx | hx)
  · exact hn (.inl (hj ▸ List.mem_append_left l hx))
  · exact hn (.inr (h.job.trans hx))

theorem trans (h : Spares n b c) (h' : Spares n c c') : Spares n b c' := by
  obtain ⟨l, hj, hl⟩ := h.journal
  obtain ⟨l', hj', hl'⟩ := h'.journal
  refine ⟨h'.keel.trans h.keel, h'.job.trans h.job,
    ⟨l ++ l', by rw [hj', hj, List.append_assoc], fun i hi => ?_⟩,
    fun id hn => (h'.slots id hn).trans (h.slots id (h'.owns hn)),
    fun id hn => (h'.routes id hn).trans (h.routes id (h'.owns hn))⟩
  exact (List.mem_append.1 hi).elim (hl i) (hl' i)

theorem of_eq (h : Spares n b c) (hk : c'.keel = c.keel) (hn : c'.job n = c.job n)
    (hj : c'.journal = c.journal) (hc : c'.correlator = c.correlator) (hr : c'.routes = c.routes) :
    Spares n b c' :=
  h.trans ⟨hk, hn, ⟨[], by rw [hj, List.append_nil], nofun⟩, fun _ _ => by rw [hc],
    fun _ _ => by rw [hr]⟩

theorem wakeFirst (h : Spares n b c) (l : List Task) : Spares n b (c.wakeFirst l) := by
  obtain ⟨l', hq⟩ := exists_ready_wakeFirst c l
  exact hq ▸ h.of_eq rfl rfl rfl rfl rfl

theorem wakeDecided (h : Spares n b c) : Spares n b c.wakeDecided := by
  obtain ⟨l, hq⟩ := exists_ready_wakeCalls c c.isDecided
  exact (show c.wakeDecided = _ from hq) ▸ h.of_eq rfl rfl rfl rfl rfl

theorem setStage (h : Spares n b c) (s : Stage) : Spares n b (c.setStage n s) :=
  h.of_eq rfl (job_setStage c n n s) rfl rfl rfl

theorem clearTimer (h : Spares n b c) : Spares n b (c.clearTimer n) :=
  h.of_eq rfl rfl rfl rfl rfl

theorem setTimer (h : Spares n b c) (due : Nat) : Spares n b (c.setTimer n due) := by
  unfold Client.setTimer
  split
  · exact h
  · exact h.of_eq rfl rfl rfl rfl rfl

theorem finish (h : Spares n b c) (r : Except Failure Outcome) : Spares n b (c.finish n r) :=
  h.clearTimer.setStage _

theorem record (h : Spares n b c) {i : Incident} (hi : ¬ i.OfConnection) :
    Spares n b (c.record i) :=
  h.trans ⟨rfl, rfl, ⟨[i], rfl, by simpa using hi⟩, fun _ _ => rfl, fun _ _ => rfl⟩

theorem setWrite (h : Spares n b c) {write : WritePath} (hw : write.half = c.write.half) :
    Spares n b { c with write := write } := by
  refine h.of_eq ?_ rfl rfl rfl rfl
  unfold Client.keel
  dsimp only
  rw [hw]

/-- A write path that is whole is left with the writing half in it. -/
theorem leaveWritePath (h : Spares n b c) (ht : c.write.torn = false) :
    Spares n b c.leaveWritePath := by
  have hw : c.write.leave.half = c.write.half := by
    rw [WritePath.half_leave, if_neg (by simp [ht])]
  have hv : c.vacate = { c with write := c.write.leave } := by
    unfold Client.vacate
    rw [ht, Bool.or_false]
  unfold Client.leaveWritePath
  rw [if_neg (by simp [ht]), hv]
  exact (h.setWrite hw).wakeFirst _

theorem release (h : Spares n b c) : Spares n b c.release :=
  (h.setWrite (WritePath.half_release _)).wakeFirst _

theorem withdraw (h : Spares n b c) (t : Task) : Spares n b (c.withdraw t) := by
  unfold Client.withdraw
  split
  · exact h.release
  · exact h.setWrite (WritePath.half_withdraw _ _)

theorem forget (h : Spares n b c) {w : Waiter} (hw : .registered n w.id ∈ c.journal) :
    Spares n b (c.forget w) := by
  refine h.trans ⟨rfl, rfl, ⟨[.left w.id], rfl, by simp [Incident.OfConnection]⟩,
    fun id hn => ?_, fun _ _ => rfl⟩
  refine (Correlator.lookup_leave _ _ _).trans (if_neg ?_)
  rintro rfl
  exact hn (.inl (List.mem_append_left _ hw))

theorem leaveIfAny (h : Spares n b c)
    (hw : ∀ w, waiter = some w → .registered n w.id ∈ c.journal) :
    Spares n b (c.leaveIfAny waiter) := by
  cases waiter with
  | none => exact h
  | some w => exact (h.forget (hw w rfl)).wakeDecided

theorem unroute (h : Spares n b c) (ho : c.Owns n id) {i : Incident} (hi : ¬ i.OfConnection) :
    Spares n b { c.record i with routes := (c.routes.unsubscribe id).2 } := by
  refine h.trans ⟨rfl, rfl, ⟨[i], rfl, by simpa using hi⟩, fun _ _ => rfl, fun id' hn => ?_⟩
  refine (Routes.get?_unsubscribe _ _ _).trans (if_neg ?_)
  rintro rfl
  exact hn (ho.imp_left (List.mem_append_left _))

/-! ### Waiting and sending -/

theorem awaitReply (h : Spares n b c) {w : Waiter} (hw : .registered n w.id ∈ c.journal)
    (due : Nat) : Spares n b (c.awaitReply n w due) := by
  unfold Client.awaitReply
  split
  next r _ =>
    refine Spares.wakeDecided ?_
    have hf : Spares n b ((c.clearTimer n).forget w) := h.clearTimer.forget hw
    cases r with
    | error e => exact hf.setStage _
    | ok reply =>
      have ha := hf.record (i := .answered n reply) id
      have ho : .registered n w.id ∈
          (((c.clearTimer n).forget w).record (.answered n reply)).journal :=
        List.mem_append_left _ (List.mem_append_left _ hw)
      unfold Client.conclude
      dsimp only
      split
      · exact (ha.unroute (.inl ho) id).setStage _
      · exact ha.setStage _
  · exact h.setTimer due

/-- A sending fails in a way that does not end the connection. -/
theorem failSending (h : Spares n b c) (ht : c.write.torn = false)
    (hw : ∀ w, waiter = some w → .registered n w.id ∈ c.journal) (he : e.endsConnection = false) :
    Spares n b (c.failSending n waiter e) := by
  have hl : Spares n b (((c.record (.unsent n e)).clearTimer n).leaveWritePath) :=
    (h.record id).clearTimer.leaveWritePath ht
  have hj : (((c.record (.unsent n e)).clearTimer n).leaveWritePath).journal =
      c.journal ++ [.unsent n e] := journal_eq (core_leaveWritePath _)
  unfold Client.failSending
  dsimp only
  rw [he]
  refine Spares.finish (hl.leaveIfAny fun w hx => ?_) _
  rw [hj]
  exact List.mem_append_left _ (hw w hx)

theorem afterSending (h : Spares n b c) (ht : c.write.torn = false)
    (hw : ∀ w, waiter = some w → .registered n w.id ∈ c.journal) :
    Spares n b (c.afterSending n waiter) := by
  have hl : Spares n b (((c.record (.sent n c.now)).clearTimer n).leaveWritePath) :=
    (h.record id).clearTimer.leaveWritePath ht
  have hj : (((c.record (.sent n c.now)).clearTimer n).leaveWritePath).journal =
      c.journal ++ [.sent n c.now] := journal_eq (core_leaveWritePath _)
  unfold Client.afterSending
  cases waiter with
  | none => exact hl.finish _
  | some w =>
    refine (hl.setStage _).awaitReply (w := w) ?_ _
    rw [journal_setStage, hj]
    exact List.mem_append_left _ (hw w rfl)

end Spares

/-! ### The turns of calls -/

/-- What the turn of a call comes to that does not close the connection on purpose. -/
def Fares (n : Nat) (b c : Client) : Prop := Spares n b c ∨ c.Breaks n

theorem Spares.holdSending (h : Spares n b c) {s : Sending} (hs : c.stage n = .send s) :
    Fares n b (c.holdSending n s) := by
  unfold Client.holdSending
  split
  · exact .inr (breaks_failSending (.later hs) rfl)
  · exact .inl (h.setTimer _)

theorem Spares.writeOn (h : Spares n b c) {s : Sending} (hs : c.stage n = .send s)
    (hw : ∀ w, s.waiter = some w → .registered n w.id ∈ c.journal) :
    Fares n b (c.writeOn n s) := by
  have hn : n < c.calls.length := lt_of_stage_ne_dropped (by simp [hs])
  unfold Client.writeOn
  generalize c.peer.write s.rest = out
  obtain ⟨written, peer⟩ := out
  dsimp only
  have hp : Spares n b { c with peer := peer } := h.of_eq rfl rfl rfl rfl rfl
  have hr : Spares n b (({ c with peer := peer } : Client).sendRest n
      { s with rest := written.rest }) := by
    refine Spares.setStage (hp.setWrite ?_) _
    rfl
  have hs' : (({ c with peer := peer } : Client).sendRest n { s with rest := written.rest }).stage n =
      .send { s with rest := written.rest } := stage_setStage_self hn _
  have hj : (({ c with peer := peer } : Client).sendRest n
      { s with rest := written.rest }).journal = c.journal := rfl
  have ht : written.rest = [] → (({ c with peer := peer } : Client).sendRest n
      { s with rest := written.rest }).write.torn = false := fun hx => by
    simp [Client.sendRest, Client.setStage, hx]
  generalize ({ c with peer := peer } : Client).sendRest n { s with rest := written.rest } = d
    at hr hs' hj ht ⊢
  have hf : ∀ fault, Fares n b (d.failSending n s.waiter (.sendFailed fault)) := fun fault =>
    .inr (breaks_failSending (Sends.later (s := { s with rest := written.rest }) hs') rfl)
  cases written with
  | all =>
    dsimp only
    split
    · exact .inl (hr.afterSending (ht rfl) fun w hx => hj ▸ hw w hx)
    · exact hr.holdSending hs'
    · exact hf _
  | waiting rest => exact hr.holdSending hs'
  | nothing rest => exact hf _
  | failed text rest => exact hf _

theorem Spares.sendMessage (h : Spares n b c₁) {m : ClientMessage}
    (he : c.Enters n m waiter (c₁.record (.sending n m))) (ht : c₁.write.torn = false)
    (hw : ∀ w, waiter = some w → .registered n w.id ∈ c₁.journal) :
    Fares n b (c₁.sendMessage n waiter m) := by
  have hr : Spares n b (c₁.record (.sending n m)) := h.record id
  have hw' : ∀ w, waiter = some w → .registered n w.id ∈ (c₁.record (.sending n m)).journal :=
    fun w hx => List.mem_append_left _ (hw w hx)
  have hf : ∀ e, Fares n b ((c₁.record (.sending n m)).failSending n waiter e) := fun e => by
    cases hx : e.endsConnection with
    | true => exact .inr (breaks_failSending (.atOnce he) hx)
    | false => exact .inl (hr.failSending ht hw' hx)
  unfold Client.sendMessage
  dsimp only
  split
  · exact hf _
  · split
    next =>
      have hn : n < (c₁.record (.sending n m)).calls.length := by
        rw [he.calls_eq]
        exact (Sends.atOnce he).lt_length
      exact (hr.setStage _).writeOn (stage_setStage_self hn _) hw'
    next => exact hf _

/-- A write path in which nobody sends is whole. -/
theorem Guarded.torn_of_lock (hg : Guarded c) (hs : c.stage n = .lock)
    (hh : c.holds (.call n) = true) : c.write.torn = false := by
  refine hg.not_torn fun m s hm => ?_
  cases hg.eq_of_send hh hm
  cases hs.symm.trans hm

/-- The request of an operation is registered under an id of its own. -/
theorem Spares.register (h : Spares n b c) {sub : Option Target} {w : Waiter}
    {correlator : Correlator Target}
    (hr : c.correlator.register c.nextId sub = .ok (w, correlator)) :
    Spares n b ({ c.useId with correlator := correlator }.record (.registered n w.id)) := by
  obtain ⟨-, -, rfl, -⟩ := Correlator.register_ok hr
  refine h.trans ⟨rfl, rfl, ⟨[_], rfl, by simp [Incident.OfConnection]⟩, fun id hn => ?_,
    fun _ _ => rfl⟩
  refine (Correlator.lookup_register hr id).trans (if_neg ?_)
  rintro rfl
  exact hn (.inl (by simp))

theorem Spares.useWritePath (h : Spares n b c) (hs : c.stage n = .lock)
    (hh : c.holds (.call n) = true) (ht : c.write.torn = false) :
    Fares n b (c.useWritePath n) := by
  unfold Client.useWritePath
  split
  next op hj =>
    unfold request
    split
    next e _ =>
      have hu : Spares n b c.useId := h.setWrite rfl
      exact .inl ((hu.leaveWritePath ht).finish _)
    next w correlator hr =>
      refine (h.register hr).sendMessage (.request hs hh hj hr) ht fun w' hx => ?_
      cases hx
      simp
  next id hj => exact h.sendMessage (.farewell hs hh hj) ht nofun
  next => exact .inl ((h.leaveWritePath ht).finish _)

theorem Spares.goForWritePath (h : Spares n b c) (hg : Guarded c) (hs : c.stage n = .fresh)
    (hl : c.life = .connected) : Fares n b (c.goForWritePath n) := by
  have hn : n < c.calls.length := lt_of_stage_ne_dropped (by simp [hs])
  have hs' := stage_setStage_self (c := { c with write := c.write.acquire (.call n) }) hn .lock
  have hk : Spares n b (({ c with write := c.write.acquire (.call n) }).setStage n .lock) :=
    (h.setWrite (WritePath.half_acquire _ _)).setStage _
  unfold Client.goForWritePath
  dsimp only
  split
  next hh => exact hk.useWritePath hs' hh ((hg.lineUp hs hl).torn_of_lock hs' hh)
  next => exact .inl hk

/-- **A call that takes its turn spares what is not its own**, once there is a session, unless it
closes the connection. -/
theorem Lawful.fares_runCall (hl : Lawful c) (hs : c.session ≠ none)
    (hd : c.stage n = .fresh → c.job n ≠ .disconnect) (hx : ¬ IsClosingStage (c.stage n)) :
    Fares n c (c.runCall n) := by
  have h := Spares.refl n c
  have hold : ∀ {w}, (c.phase n).waiter? = some w → .registered n w.id ∈ c.journal := fun hw =>
    (hl.correlated.waits hw).1
  unfold Client.runCall
  split
  next hf =>
    split
    next hj =>
      split
      next hu => exact absurd (hl.guarded.young (.inl hu)) hs
      next => exact .inl (h.finish _)
    next op hj =>
      unfold startOperation
      split
      · exact .inl (h.finish _)
      · split
        next hc => exact h.goForWritePath hl.guarded hf ((isConnected_iff _).1 hc)
        next => exact .inl (h.finish _)
    next id hj =>
      unfold startUnsubscribe
      split
      · have hu : Spares n c { c.record (.unsubscribed id) with
            routes := (c.routes.unsubscribe id).2 } := h.unroute (.inr hj) not_false
        have hg : Guarded { c.record (.unsubscribed id) with
            routes := (c.routes.unsubscribe id).2 } := hl.guarded.congr rfl
        dsimp only
        split
        next hc => exact hu.goForWritePath hg hf ((isConnected_iff _).1 hc)
        next => exact .inl (hu.finish _)
      · exact .inl (h.finish _)
    next => exact .inl (h.finish _)
    next hj => exact absurd hj (hd hf)
  next e due hh => exact absurd (hl.guarded.young (.inr (hl.guarded.half_of_handshake hh))) hs
  next hk =>
    split
    next hh => exact h.useWritePath hk hh (hl.guarded.torn_of_lock hk hh)
    next => exact .inl h
  next s hk => exact h.writeOn hk fun w hw => hold (by rw [phase_of_stage hk nofun]; exact hw)
  next w due hk => exact .inl (h.awaitReply (hold (by rw [phase_of_stage hk nofun]; rfl)) due)
  next k hk =>
    rw [hk] at hx
    exact absurd trivial hx
  next k hk =>
    rw [hk] at hx
    exact absurd trivial hx
  next =>
    split
    · exact .inl (h.finish _)
    · exact .inl h
  · exact .inl h
  · exact .inl h

theorem Lawful.fares_turn (hl : Lawful c) (hs : c.session ≠ none)
    (hd : c.stage n = .fresh → c.job n ≠ .disconnect) (hx : ¬ IsClosingStage (c.stage n)) :
    Fares n c (c.turn (.call n)) := by
  have hm : c.Move { c with ready := c.ready.erase (.call n) } := .quiet rfl
  have hf := (Lawful.move hm hl).fares_runCall hs hd hx
  have hs : Spares n c { c with ready := c.ready.erase (.call n) } :=
    (Spares.refl n c).of_eq rfl rfl rfl rfl rfl
  exact hf.imp_left hs.trans

/-- **A call that is given up spares what is not its own**, once there is a session, unless it leaves
a frame half written or shuts the writing half down. -/
theorem Lawful.spares_cancelCall (hl : Lawful c) (hs : c.session ≠ none)
    (ht : ∀ s, c.stage n = .send s → c.write.torn = false)
    (hx : ∀ k, c.stage n ≠ .closeShutdown k) : Spares n c (c.cancelCall n) := by
  have hd : Spares n c ((c.clearTimer n).setStage n .dropped) := (Spares.refl n c).clearTimer.setStage _
  have hold : ∀ {w}, (c.phase n).waiter? = some w → .registered n w.id ∈ c.journal := fun hw =>
    (hl.correlated.waits hw).1
  unfold Client.cancelCall
  dsimp only
  split
  next hh => exact absurd (hl.guarded.young (.inr (hl.guarded.half_of_handshake hh))) hs
  · exact hd.withdraw _
  · exact hd.withdraw _
  next s hk =>
    have hw : Spares n c (((c.clearTimer n).setStage n .dropped).leaveIfAny s.waiter) :=
      hd.leaveIfAny fun w hw => hold (by rw [phase_of_stage hk nofun]; exact hw)
    refine hw.leaveWritePath ?_
    rw [write_eq (core_leaveIfAny _ _), write_forgetAny]
    exact ht s hk
  next w due hk =>
    exact (hd.forget (hold (by rw [phase_of_stage hk nofun]; rfl))).wakeDecided
  next k hk => exact absurd hk (hx k)
  · exact hd
  · exact hd
  · exact .refl n c
  · exact .refl n c

end Client

end DocWire
