import DocWire.Proofs.Client.Feeds
import DocWire.Proofs.Client.Queueing
import DocWire.Proofs.Client.Replies

/-! # Disconnecting

Whoever disconnects an open connection fails all requests under way. A call that waits for its reply,
or is writing what the peer takes, then ends with a closed connection as soon as all tasks have had
their turns, in whichever order they take them and whatever the reader takes up before it stops, and
no time passes (`Possible.drains`). The call that disconnects ends as well unless the peer holds up
whoever has the write path, or puts off being shut down. A call that writes what the peer does not
take has the write path, and so both of them wait. -/

namespace DocWire.Client

open DocWire.Correlator (Waiter)

/-- What a task does while nothing happens from outside: it takes its turn, or, as the reader, takes
up frames though it has been asked to stop. -/
inductive Runs : Client → Client → Prop
  | turn (c : Client) (t : Task) : Runs c (c.turn t)
  | overlook (c : Client) (count : Nat) : Runs c (c.overlook count)

/-- What the tasks do while nothing happens from outside. -/
def Turns : Client → Client → Prop := Relation.ReflTransGen Runs

variable {b c c' d : Client} {config : Config} {n m : Nat} {w : Waiter} {due : Nat} {t : Task}
  {k : AfterClose}

theorem turns_settleFor (fuel : Nat) (c : Client) : c.Turns (c.settleFor fuel) := by
  induction fuel generalizing c with
  | zero => exact .refl
  | succ fuel ih =>
    unfold settleFor
    split
    · exact .refl
    · exact .head (.turn _ _) (ih _)

/-- The tasks go on until all of them wait. -/
structure Settles (c c' : Client) : Prop where
  turns : c.Turns c'
  ready : c'.ready = []

theorem Possible.settles (h : Possible config c) : c.Settles c.settle :=
  ⟨turns_settleFor _ _, h.ready_settle⟩

theorem Turns.onward (h : c.Turns c') : c.Onward c' := by
  induction h with
  | refl => exact .refl c
  | tail _ hp ih =>
    cases hp with
    | turn t => exact ih.turn t
    | overlook count => exact ih.overlook count

theorem stage_turn_done {r : Except Failure Outcome} (hs : c.stage n = .done r) :
    (c.turn (.call n)).stage n = .done r := by
  have hs' : ({ c with ready := c.ready.erase (.call n) } : Client).stage n = .done r := hs
  unfold turn run runCall
  dsimp only
  rw [hs']
  exact hs'

/-- A call whose mailbox is orphaned ends. -/
theorem stage_awaitReply (hm : m < c.calls.length)
    (ho : c.correlator.mailbox w.ticket = .orphaned) :
    (c.awaitReply m w due).stage m = .done (.error .connectionClosed) := by
  have hx : c.correlator.outcome? w (due ≤ c.now) c.config.requestTimeout =
      some (.error .connectionClosed) := by
    unfold Correlator.outcome?
    rw [ho]
  unfold awaitReply
  rw [hx]
  dsimp only
  unfold endWait
  rw [stage_eq (core_wakeDecided _)]
  exact stage_setStage_self hm _

theorem stage_writeOn {s : Sending} (hm : m < c.calls.length) (hw : s.waiter = some w)
    (hx : c.peer.Takes s.rest) (ho : c.correlator.mailbox w.ticket = .orphaned) :
    (c.writeOn m s).stage m = .done (.error .connectionClosed) := by
  have hf : (c.peer.write s.rest).2.onFlush = .ready :=
    (c.peer.onFlush_write s.rest).trans hx.2
  have ha := hx.1
  unfold writeOn
  generalize c.peer.write s.rest = x at hf ha
  obtain ⟨written, peer⟩ := x
  obtain rfl : written = .all := ha
  dsimp only at hf ⊢
  rw [hf]
  dsimp only
  unfold afterSending
  rw [hw]
  dsimp only
  refine stage_awaitReply ?_ ?_
  · rw [length_setStage, calls_eq (core_leaveWritePath _)]
    exact (length_setStage _ m _).symm ▸ hm
  · change (leaveWritePath _).correlator.mailbox w.ticket = _
    rw [correlator_eq (core_leaveWritePath _)]
    exact ho

/-! ### Once closing has begun -/

/-- Closing has begun, and no request has been resolved since a certain state. -/
structure Past (b c : Client) : Prop where
  correlated : Correlated c
  guarded : Guarded c
  isSealed : Sealed c
  life : c.life.IsPast
  resolved : ∀ {n id reply}, Resolved c.journal n id reply → Resolved b.journal n id reply

namespace Past

theorem move (hm : c.Move c') (h : Past b c) : Past b c' where
  correlated := h.correlated.move hm
  guarded := h.guarded.move hm
  isSealed := h.isSealed.move hm h.guarded
  life := (h.isSealed.ages h.guarded hm).isPast h.life
  resolved hr := by
    rcases (h.correlated.feeds hm).resolved hr with hr | hg
    · exact h.resolved hr
    · exact absurd (h.isSealed.connected_of_registered h.correlated hg) h.life.ne_connected

theorem runs (h : Past b c) (hp : c.Runs c') : Past b c' := by
  cases hp with
  | turn t => exact (Moves.turn c t).induct Past.move h
  | overlook count => exact (moves_overlook c count).induct Past.move h

theorem of_close (hc : Correlated c) (hg : Guarded c) (hx : Sealed c) (hm : c.MayClose k t)
    (hl : c.life = .connected) : Past c (c.close t k) := by
  have hb : c.Move (c.toCloseLock k t).breakOff := .close hm hl
  have hj : (c.toCloseLock k t).breakOff.journal = c.journal ++ [.closing] := by
    cases t <;> rfl
  have hp : Past c (c.toCloseLock k t).breakOff :=
    ⟨hc.move hb, hg.move hb, hx.move hb hg, .inl rfl, fun hr => by
      rwa [hj, resolved_concat_of_ne (i := .closing) nofun] at hr⟩
  unfold Client.close
  rw [if_pos hl]
  exact (moves_afterBreakOff (inCloseLock_toCloseLock hm)).induct Past.move hp

theorem mailbox (h : Past b c) (hp : (c.phase m).waiter? = some w)
    (hn : ∀ r, ¬ Resolved b.journal m w.id r) : c.correlator.mailbox w.ticket = .orphaned := by
  obtain ⟨-, hb⟩ := h.correlated.waits hp
  generalize c.correlator.mailbox w.ticket = x at hb ⊢
  cases hb with
  | vacant hg hl hr =>
    exact absurd (h.isSealed.connected_of_registered h.correlated hg) h.life.ne_connected
  | filled hg hl hr => exact absurd (h.resolved ((hr _).2 rfl)) (hn _)
  | orphaned => rfl

theorem mailbox_of_await (h : Past b c) (hs : c.stage m = .await w due)
    (hn : ∀ r, ¬ Resolved b.journal m w.id r) : c.correlator.mailbox w.ticket = .orphaned := by
  refine h.mailbox ?_ hn
  rw [phase_of_stage hs nofun]
  rfl

/-- A call that waits ends when it takes its turn. -/
theorem stage_turn (h : Past b c) (hs : c.stage m = .await w due)
    (hn : ∀ r, ¬ Resolved b.journal m w.id r) :
    (c.turn (.call m)).stage m = .done (.error .connectionClosed) := by
  have hs' : ({ c with ready := c.ready.erase (.call m) } : Client).stage m = .await w due := hs
  have hm : m < c.calls.length := lt_of_stage_ne_dropped (by simp [hs])
  unfold Client.turn run runCall
  dsimp only
  rw [hs']
  exact stage_awaitReply hm (h.mailbox_of_await hs hn)

theorem stage_turn_send (h : Past b c) {s : Sending} (hs : c.stage m = .send s)
    (hw : s.waiter = some w) (hx : c.peer.Takes s.rest)
    (hn : ∀ r, ¬ Resolved b.journal m w.id r) :
    (c.turn (.call m)).stage m = .done (.error .connectionClosed) := by
  have hs' : ({ c with ready := c.ready.erase (.call m) } : Client).stage m = .send s := hs
  have hm : m < c.calls.length := lt_of_stage_ne_dropped (by simp [hs])
  have ho : c.correlator.mailbox w.ticket = .orphaned := by
    refine h.mailbox ?_ hn
    rw [phase_of_stage hs nofun]
    exact hw
  unfold Client.turn run runCall
  dsimp only
  rw [hs']
  exact stage_writeOn hm hw hx ho

/-- A call that waits does so until it ends with a closed connection. -/
theorem turns (h : Past b c) (ht : c.Turns c') (hs : c.stage m = .await w due)
    (hn : ∀ r, ¬ Resolved b.journal m w.id r) :
    Past b c' ∧ (c'.stage m = .await w due ∨ c'.stage m = .done (.error .connectionClosed)) := by
  induction ht with
  | refl => exact ⟨h, .inl hs⟩
  | @tail d d' _ hd ih =>
    obtain ⟨hp, hs⟩ := ih
    refine ⟨hp.runs hd, ?_⟩
    cases hd with
    | overlook count =>
      rw [stage_overlook]
      exact hs
    | turn t =>
      by_cases ht : t = .call m
      · subst ht
        rcases hs with hs | hs
        · exact .inr (hp.stage_turn hs hn)
        · exact .inr (stage_turn_done hs)
      · rw [hp.guarded.stage_turn hp.isSealed ht]
        exact hs

end Past

/-! ### The call that disconnects -/

/-- The reader has ended, or it has been asked to stop and is about to go on. -/
def Stops (c : Client) : Prop :=
  c.reader = .ended ∨ (∃ b, c.reader = .reading b) ∧ c.stopAsked = true ∧ .reader ∈ c.ready

/-- A call that has closed the connection is done, or waits for the reader to end. -/
structure Joining (c : Client) (n : Nat) : Prop where
  reader : c.Stops
  call : c.stage n = .done (.ok .done) ∨
    c.stage n = .join ∧ (c.reader = .ended → .call n ∈ c.ready)

theorem turn_reader_of_asked (hl : c.life ≠ .connected) {buffer : Frame.Buffer}
    (hr : c.reader = .reading buffer) (ha : c.stopAsked = true) :
    c.turn .reader = { c with ready := c.ready.erase .reader, stopAsked := false }.endReader := by
  unfold turn run runReader
  dsimp only
  rw [hr]
  dsimp only
  rw [if_pos ha]
  split
  · unfold closeReader close
    rw [if_neg hl]
    rfl
  · rfl

theorem Orderly.mem_ready_endReader {count : Nat} (h : c.Orderly count) (hn : n < count)
    (hj : c.stage n = .join) : .call n ∈ c.endReader.ready := by
  have hw : ∀ d : Client, d.Orderly count → d.stage n = .join →
      .call n ∈ (d.wakeCalls Stage.joins).ready := fun d hd hs =>
    (hd.wakeCalls Stage.joins).2.2 n hn (by rw [hs]; rfl)
  have hr : { c with reader := .ended }.Orderly count := h.of_eq rfl rfl rfl fun _ ht => ht
  unfold endReader
  dsimp only
  split
  · exact hw _ hr hj
  · exact hw _ (hr.of_eq rfl rfl (WritePath.queue_dropHalf _) fun _ ht => ht) hj

theorem Stops.turn (h : c.Stops) (hp : Past b c) (t : Task) : (c.turn t).Stops := by
  cases t with
  | reader =>
    refine .inl ?_
    rcases h with hr | ⟨⟨buffer, hr⟩, ha, -⟩
    · have hx : c.turn .reader = { c with ready := c.ready.erase .reader } := by
        unfold Client.turn run runReader
        dsimp only
        rw [hr]
      rw [hx]
      exact hr
    · rw [turn_reader_of_asked hp.life.ne_connected hr ha]
      exact reader_eq (core_endReader _)
  | call m =>
    have hs := hp.guarded.tends_turn hp.isSealed (.call m)
    obtain ⟨hr, -⟩ := hs.reader nofun hp.life.ne_unconnected
    unfold Stops
    rw [hr]
    exact h.imp_right fun ⟨hb, ha, hm⟩ => ⟨hb, hs.asked nofun ha,
      hp.guarded.mem_ready_turn hp.isSealed hm nofun⟩

theorem Joining.turn (h : c.Joining n) (hp : Past b c) (ho : c.Orderly c.calls.length) (t : Task) :
    (c.turn t).Joining n := by
  refine ⟨h.reader.turn hp t, ?_⟩
  have hs := hp.guarded.tends_turn hp.isSealed t
  cases t with
  | reader =>
    rcases h.reader with hr | ⟨⟨buffer, hr⟩, ha, -⟩
    · have hx : c.turn .reader = { c with ready := c.ready.erase .reader } := by
        unfold Client.turn run runReader
        dsimp only
        rw [hr]
      rw [hx]
      refine h.call.imp_right fun ⟨hj, hn⟩ => ⟨hj, fun hr => ?_⟩
      have hne : Task.call n ≠ .reader := nofun
      exact (List.mem_erase_of_ne hne).2 (hn hr)
    · rw [turn_reader_of_asked hp.life.ne_connected hr ha]
      have hq := core_endReader { c with ready := c.ready.erase .reader, stopAsked := false }
      rw [stage_eq hq]
      refine h.call.imp_right fun ⟨hj, _⟩ => ⟨hj, fun _ => ?_⟩
      have hn : n < c.calls.length := lt_of_stage_ne_dropped (by simp [hj])
      exact Orderly.mem_ready_endReader ((ho.erase .reader).of_eq rfl rfl rfl fun _ ht => ht) hn hj
  | call m =>
    obtain ⟨hr, -⟩ := hs.reader nofun hp.life.ne_unconnected
    rw [hr]
    by_cases hmn : n = m
    · subst hmn
      rcases h.call with hd | ⟨hj, hn⟩
      · exact .inl (stage_turn_done hd)
      have hl : n < c.calls.length := lt_of_stage_ne_dropped (by simp [hj])
      have hj' : ({ c with ready := c.ready.erase (.call n) } : Client).stage n = .join := hj
      unfold Client.turn run runCall
      dsimp only
      rw [hj']
      dsimp only
      split
      · exact .inl (stage_setStage_self hl _)
      next he => exact .inr ⟨hj, fun hx => absurd hx he⟩
    · have hne : Task.call m ≠ .call n := fun hx => hmn (Task.call.inj hx).symm
      rw [hs.stage n hne]
      refine h.call.imp_right fun ⟨hj, hn⟩ => ⟨hj, fun hx => ?_⟩
      exact hp.guarded.mem_ready_turn hp.isSealed (hn hx) hne.symm

/-- A reader that takes up frames once closing has begun goes on reading, or ends. -/
theorem Alert.exists_readFrames {count : Nat} (h : c.Alert count none) (hl : c.life ≠ .connected)
    (fuel : Nat) (buffer : Frame.Buffer) : ∃ d : Client, d.Alert count none ∧ (∀ t, Tends t c d) ∧
      (c.readFrames fuel buffer = d.endReader ∨
        ∃ buffer', c.readFrames fuel buffer = { d with reader := .reading buffer' }) := by
  induction fuel generalizing c buffer with
  | zero => exact ⟨c, h, fun t => .refl t c, .inr ⟨buffer, rfl⟩⟩
  | succ fuel ih =>
    have ha : ∀ source, { c with source := source }.Alert count none := fun source =>
      h.of_eq rfl rfl rfl (fun _ => id) rfl
    have ht : ∀ source t, Tends t c { c with source := source } := fun source t =>
      (Tends.refl t c).of_eq rfl rfl rfl rfl rfl rfl
    unfold Client.readFrames
    split
    next f buffer' source _ =>
      split
      · have hr : ({ c with source := source }.route f).life ≠ .connected := by
          rw [life_route]
          exact hl
        obtain ⟨d, hd, hx, he⟩ := ih ((ha source).route f) hr buffer'
        exact ⟨d, hd, fun t => ((ht source t).route f).trans (hx t), he⟩
      · exact ⟨_, ha source, ht source, .inl rfl⟩
    next buffer' source _ => exact ⟨_, ha source, ht source, .inr ⟨buffer', rfl⟩⟩
    next source _ _ _ =>
      refine ⟨_, ha source, ht source, .inl ?_⟩
      split
      · unfold Client.closeReader Client.close
        exact if_neg hl
      · rfl

/-- Whatever a reader that has been asked to stop still takes up, it stops, or is about to. -/
theorem Stops.overlook (h : c.Stops) (hp : Past b c) (ha : c.Alert c.calls.length none)
    (count : Nat) : (c.overlook count).Stops := by
  unfold Client.overlook
  split
  next buffer hr =>
    obtain ⟨d, -, ht, hx⟩ := ha.exists_readFrames hp.life.ne_connected count buffer
    rcases hx with he | ⟨buffer', he⟩
    · rw [he]
      exact .inl (reader_eq (core_endReader d))
    · obtain ⟨-, hq, hm⟩ := h.resolve_left (by rw [hr]; nofun)
      rw [he]
      exact .inr ⟨⟨buffer', rfl⟩, (ht (.call 0)).asked nofun hq, (ht .reader).ready _ hm⟩
  next => exact h

theorem Joining.overlook (h : c.Joining n) (hp : Past b c) (ha : c.Alert c.calls.length none)
    (count : Nat) : (c.overlook count).Joining n := by
  refine ⟨h.reader.overlook hp ha count, ?_⟩
  unfold Client.overlook
  split
  next buffer hr =>
    obtain ⟨d, hd, ht, hx⟩ := ha.exists_readFrames hp.life.ne_connected count buffer
    have hs : d.stage n = c.stage n := (ht .reader).stage n nofun
    rcases hx with he | ⟨buffer', he⟩
    · have hs' : d.endReader.stage n = c.stage n := (ht .reader).endReader.stage n nofun
      rw [he, hs']
      refine h.call.imp_right fun ⟨hj, _⟩ => ⟨hj, fun _ => ?_⟩
      have hn : n < c.calls.length := lt_of_stage_ne_dropped (by simp [hj])
      exact hd.toOrderly.mem_ready_endReader hn (hs.trans hj)
    · rw [he]
      exact h.call.imp hs.trans fun ⟨hj, _⟩ => ⟨hs.trans hj, nofun⟩
  next => exact h.call

theorem Joining.runs (h : c.Joining n) (hp : Past b c) (ha : c.Alert c.calls.length none)
    (hx : c.Runs c') : c'.Joining n := by
  cases hx with
  | turn t => exact h.turn hp ha.toOrderly t
  | overlook count => exact h.overlook hp ha count

/-- Once all tasks wait, the call that disconnects has ended. -/
theorem Joining.stage_eq (h : c.Joining n) (hr : c.ready = []) : c.stage n = .done (.ok .done) := by
  refine h.call.resolve_right fun ⟨_, hn⟩ => ?_
  rw [hr] at hn
  rcases h.reader with he | ⟨-, -, hm⟩
  · exact absurd (hn he) (by simp)
  · rw [hr] at hm
    exact absurd hm (by simp)

theorem exists_joinReader_shutHalf (hp : c.peer.onShutdown ≠ .waits) :
    ∃ e, c.shutHalf (.call n) .join = e.joinReader n ∧ Tends (.call n) c e ∧ e.calls = c.calls := by
  unfold shutHalf Stream.Sink.askShutdown
  split
  next h => exact absurd (Prod.mk.inj h).1 hp
  next h =>
    refine ⟨_, rfl, ?_, rfl⟩
    exact ((Tends.refl _ c).setLife (l := .closed) nofun).of_eq rfl rfl rfl rfl rfl rfl

theorem exists_joinReader_takeHalf (hp : c.peer.onShutdown ≠ .waits) :
    ∃ e, c.takeHalf (.call n) .join = e.joinReader n ∧ Tends (.call n) c e ∧
      e.calls.length = c.calls.length := by
  have hc := Tends.refl (.call n) c
  unfold takeHalf
  split
  · obtain ⟨l, hl⟩ := exists_ready_release { c with write := { c.write with half := .leaving } }
    have ht := (hc.setWrite { c.write with half := .leaving }).release.toShutdown .join
    rw [hl] at ht ⊢
    obtain ⟨e, he, hte, hce⟩ := exists_joinReader_shutHalf (n := n)
      (c := ({ c with
        write := ({ c.write with half := .leaving } : WritePath).release
        ready := l }).toShutdown .join (.call n)) hp
    refine ⟨e, he, ht.trans hte, ?_⟩
    rw [hce]
    exact length_setStage _ _ _
  · obtain ⟨l, hl⟩ := exists_ready_release c
    have ht := hc.release.setLife (l := .closed) nofun
    rw [hl] at ht ⊢
    exact ⟨_, rfl, ht, rfl⟩

theorem exists_joinReader_lineUp (hw : c.write.holder = none) (hp : c.peer.onShutdown ≠ .waits) :
    ∃ e, c.lineUpToClose (.call n) .join = e.joinReader n ∧ Tends (.call n) c e ∧
      e.calls.length = c.calls.length := by
  have hh : ({ c with write := c.write.acquire (.call n) } : Client).holds (.call n) = true := by
    unfold holds WritePath.acquire
    rw [hw]
    exact beq_self_eq_true _
  unfold lineUpToClose
  dsimp only
  rw [if_pos hh]
  obtain ⟨e, he, ht, hl⟩ := exists_joinReader_takeHalf (n := n)
    (c := { c with write := c.write.acquire (.call n) }) hp
  exact ⟨e, he, ((Tends.refl _ c).setWrite _).trans ht, hl⟩

theorem joining_joinReader (hn : n < c.calls.length) (hr : c.Stops) :
    (c.joinReader n).Joining n := by
  unfold joinReader
  split
  · dsimp only
    split
    · exact ⟨hr, .inl (stage_setStage_self hn _)⟩
    next he => exact ⟨hr, .inr ⟨stage_setStage_self hn _, fun hx => absurd hx he⟩⟩
  · exact ⟨hr, .inl (stage_setStage_self hn _)⟩

theorem Tends.stops (h : Tends (.call n) b c) (hl : b.life ≠ .unconnected) (hr : b.Stops) :
    c.Stops := by
  obtain ⟨hd, -⟩ := h.reader nofun hl
  unfold Stops
  rw [hd]
  exact hr.imp_right fun ⟨hb, ha, hm⟩ => ⟨hb, h.asked nofun ha, h.ready _ hm⟩

/-- A call that closes an open connection goes for the write path when all requests have failed and
the reader has been asked to stop. -/
theorem Sealed.exists_lineUp (h : Sealed c) (hl : c.life = .connected) (hn : n < c.calls.length) :
    ∃ d : Client, c.close (.call n) .join = d.lineUpToClose (.call n) .join ∧ d.write = c.write ∧
      d.peer = c.peer ∧ d.calls.length = c.calls.length ∧ d.stage n = .closeLock .join ∧
      d.life ≠ .unconnected ∧ d.Stops := by
  obtain ⟨l, hb⟩ := exists_ready_wakeCalls (c.toCloseLock .join (.call n)).breakOff
    (c.toCloseLock .join (.call n)).breakOff.isDecided
  have hd : (c.toCloseLock .join (.call n)).breakOff.wakeDecided =
      { (c.toCloseLock .join (.call n)).breakOff with ready := l } := hb
  obtain ⟨l', hs⟩ := exists_ready_wake
    { (c.toCloseLock .join (.call n)).breakOff with ready := l, stopAsked := true } .reader
  have hm : .reader ∈ l' := by
    have hx := (mem_wake { (c.toCloseLock .join (.call n)).breakOff with
      ready := l, stopAsked := true } .reader).2 (.inr rfl)
    rwa [hs] at hx
  refine ⟨{ (c.toCloseLock .join (.call n)).breakOff with ready := l', stopAsked := true }, ?_, rfl,
    rfl, length_setStage c n _, stage_setStage_self hn _, nofun, ?_⟩
  · unfold close
    rw [if_pos hl, hd]
    unfold askStop
    rw [hs]
  · have hu := (h.begun (by simp [hl])).2
    change c.reader = .ended ∨ (∃ b, c.reader = .reading b) ∧ _
    cases hx : c.reader with
    | absent => exact absurd hx hu
    | reading b => exact .inr ⟨⟨b, rfl⟩, rfl, hm⟩
    | closeLock => exact absurd hl (h.reader (.inl hx)).ne_connected
    | closeShutdown => exact absurd hl (h.reader (.inr hx)).ne_connected
    | ended => exact .inl rfl

/-- If the write path is free, it goes on at once to wait for the reader. -/
theorem Sealed.joining_close (h : Sealed c) (hl : c.life = .connected) (hn : n < c.calls.length)
    (hw : c.write.holder = none) (hp : c.peer.onShutdown ≠ .waits) :
    (c.close (.call n) .join).Joining n := by
  obtain ⟨d, hx, hdw, hdp, hdl, -, hu, hr⟩ := h.exists_lineUp hl hn
  obtain ⟨e, he, ht, hc⟩ := exists_joinReader_lineUp (n := n) (c := d) (hdw ▸ hw) (hdp ▸ hp)
  rw [hx, he]
  refine joining_joinReader ?_ (ht.stops hu hr)
  rw [hc, hdl]
  exact hn

/-! ### While the write path is taken -/

/-- A call that closes the connection stands in line for the write path. -/
structure Leaving (c : Client) (n : Nat) : Prop where
  reader : c.Stops
  call : c.stage n = .closeLock .join

/-- If someone else has the write path, the call that closes stands in line behind him. -/
theorem Sealed.leaving_close (h : Sealed c) (hl : c.life = .connected) (hn : n < c.calls.length)
    (hw : c.write.holder = some t) (ht : t ≠ .call n) : (c.close (.call n) .join).Leaving n := by
  obtain ⟨d, hx, hdw, -, -, hs, -, hr⟩ := h.exists_lineUp hl hn
  rw [hx]
  unfold lineUpToClose
  dsimp only
  rw [if_neg]
  · exact ⟨hr, hs⟩
  · rw [holds_iff, WritePath.holder_acquire, hdw, hw]
    exact fun hx => ht (Option.some.inj hx)

/-- When it gets the write path, it goes on to wait for the reader. -/
theorem Leaving.turn (h : c.Leaving n) (hp : Past b c) (hx : c.peer.onShutdown ≠ .waits)
    (t : Task) : (c.turn t).Leaving n ∨ (c.turn t).Joining n := by
  have hr := h.reader.turn hp t
  by_cases ht : t = .call n
  · subst ht
    have hs : ({ c with ready := c.ready.erase (.call n) } : Client).stage n = .closeLock .join :=
      h.call
    have hn : n < c.calls.length := lt_of_stage_ne_dropped (by simp [h.call])
    have hne : Task.reader ≠ .call n := nofun
    unfold Client.turn run runCall at hr ⊢
    dsimp only at hr ⊢
    rw [hs] at hr ⊢
    dsimp only at hr ⊢
    split
    · obtain ⟨e, he, hte, hc⟩ := exists_joinReader_takeHalf (n := n)
        (c := { c with ready := c.ready.erase (.call n) }) hx
      have hrr : ({ c with ready := c.ready.erase (.call n) } : Client).Stops :=
        h.reader.imp_right fun ⟨hb, ha, hm⟩ => ⟨hb, ha, (List.mem_erase_of_ne hne).2 hm⟩
      rw [he]
      exact .inr (joining_joinReader (hc ▸ hn) (hte.stops hp.life.ne_unconnected hrr))
    next hh =>
      rw [if_neg hh] at hr
      exact .inl ⟨hr, hs⟩
  · refine .inl ⟨hr, ?_⟩
    rw [hp.guarded.stage_turn hp.isSealed ht]
    exact h.call

/-! ### Disconnecting drains -/

theorem turn_disconnect (hs : c.stage n = .fresh) (hj : c.job n = .disconnect) :
    c.turn (.call n) = { c with ready := c.ready.erase (.call n) }.close (.call n) .join := by
  have hs' : ({ c with ready := c.ready.erase (.call n) } : Client).stage n = .fresh := hs
  have hj' : ({ c with ready := c.ready.erase (.call n) } : Client).job n = .disconnect := hj
  unfold turn run runCall
  dsimp only
  rw [hs']
  dsimp only
  rw [hj']

/-- What has become of the calls of a client once one of them has disconnected. No time has passed.
Whoever had a request under way has ended, unless he was writing what the peer does not take. So has
the call that has disconnected, if the write path was free, or if the peer holds up nobody in the end,
and unless the peer puts off shutting down. -/
structure Drained (c : Client) (n : Nat) (c' : Client) : Prop where
  now : c'.now = c.now
  ends : ∀ m id, Registered c.journal m id → ¬ c.Stalled (.call m) →
    c'.stage m = .done (.error .connectionClosed)
  disconnected : c.write.holder = none ∨ (∀ x, ¬ c'.Stalled x) → c.peer.onShutdown ≠ .waits →
    c'.stage n = .done (.ok .done)

theorem stage_of_waiter? (hw : (c.phase m).waiter? = some w) :
    (∃ s, c.stage m = .send s ∧ s.waiter = some w) ∨ ∃ due, c.stage m = .await w due := by
  unfold phase at hw
  unfold stage
  cases hc : c.calls[m]? with
  | none =>
    rw [hc] at hw
    cases hw
  | some call =>
    rw [hc] at hw
    have hw : call.stage.phase.waiter? = some w := hw
    change (∃ s, call.stage = .send s ∧ s.waiter = some w) ∨ ∃ due, call.stage = .await w due
    revert hw
    cases call.stage with
    | send s => exact fun hw => .inl ⟨s, rfl, hw⟩
    | await w' due =>
      intro hw
      cases hw
      exact .inr ⟨due, rfl⟩
    | closeLock k => cases k <;> nofun
    | closeShutdown k => cases k <;> nofun
    | _ => nofun

theorem Turns.now (ht : c.Turns c') (h : Possible config c) : c'.now = c.now := by
  induction ht with
  | refl => rfl
  | @tail d _ ht hd ih =>
    have hr := h.onward (Turns.onward ht)
    cases hd with
    | turn t => exact ((hr.guarded.tends_turn hr.sealed t).now).trans ih
    | overlook count => exact ((Tends.refl .reader d).overlook count).now.trans ih

theorem Turns.joining (ht : c.Turns c') (h : Possible config c) (hp : Past b c)
    (hj : c.Joining n) : c'.Joining n := by
  refine And.right (a := Past b c') ?_
  induction ht with
  | refl => exact ⟨hp, hj⟩
  | tail ht hd ih =>
    obtain ⟨hp, hj⟩ := ih
    exact ⟨hp.runs hd, hj.runs hp (h.onward (Turns.onward ht)).alert hd⟩

theorem Turns.leaving (ht : c.Turns c') (h : Possible config c) (hp : Past b c)
    (hx : c.peer.onShutdown ≠ .waits) (hj : c.Leaving n) : c'.Leaving n ∨ c'.Joining n := by
  refine And.right (a := Past b c' ∧ c'.peer.onShutdown ≠ .waits) ?_
  induction ht with
  | refl => exact ⟨⟨hp, hx⟩, .inl hj⟩
  | @tail d e ht hd ih =>
    obtain ⟨⟨hp, hx⟩, hj⟩ := ih
    have hr := h.onward (Turns.onward ht)
    refine ⟨⟨hp.runs hd, ?_⟩, ?_⟩
    · cases hd with
      | turn t => rw [(hr.lined.turn hr.guarded hr.sealed t).shutdown]; exact hx
      | overlook count => rw [(hr.lined.overlook count).shutdown]; exact hx
    · rcases hj with hj | hj
      · cases hd with
        | turn t => exact hj.turn hp hx t
        | overlook count =>
          exact .inl ⟨hj.reader.overlook hp hr.alert count, (stage_overlook d count n).trans hj.call⟩
      · exact .inr (hj.runs hp hr.alert hd)

/-- A call that writes what the peer takes does so until it ends with a closed connection. -/
theorem Turns.sending {s : Sending} (ht : c.Turns c') (h : Possible config c) (hp : Past b c)
    (hs : c.stage m = .send s) (hw : s.waiter = some w) (hx : c.peer.Takes s.rest)
    (hn : ∀ r, ¬ Resolved b.journal m w.id r) :
    Past b c' ∧ (c'.stage m = .send s ∧ c'.peer.Takes s.rest ∨
      c'.stage m = .done (.error .connectionClosed)) := by
  induction ht with
  | refl => exact ⟨hp, .inl ⟨hs, hx⟩⟩
  | @tail d e ht hd ih =>
    obtain ⟨hp, hs⟩ := ih
    have hr := h.onward (Turns.onward ht)
    refine ⟨hp.runs hd, ?_⟩
    rcases hs with ⟨hs, hx⟩ | hs
    · have hh := (hr.guarded.sender hs).1
      cases hd with
      | overlook count =>
        obtain ⟨-, ht⟩ := (hr.lined.overlook count).kept (.call m) nofun hh
        exact .inl ⟨(stage_overlook d count m).trans hs, (ht _).2 hx⟩
      | turn t =>
        by_cases htm : t = .call m
        · subst htm
          exact .inr (hp.stage_turn_send hs hw hx hn)
        · obtain ⟨-, ht⟩ := (hr.lined.turn hr.guarded hr.sealed t).kept (.call m) htm hh
          exact .inl ⟨(hr.guarded.stage_turn hr.sealed htm).trans hs, (ht _).2 hx⟩
    · refine .inr ?_
      cases hd with
      | overlook count => exact (stage_overlook d count m).trans hs
      | turn t =>
        by_cases htm : t = .call m
        · subst htm
          exact stage_turn_done hs
        · exact (hr.guarded.stage_turn hr.sealed htm).trans hs

theorem Possible.past_disconnect (h : Possible config c) (hl : c.life = .connected)
    (hs : c.stage n = .fresh) (hj : c.job n = .disconnect) :
    Past { c with ready := c.ready.erase (.call n) } (c.turn (.call n)) := by
  have hq : c.Move { c with ready := c.ready.erase (.call n) } := .quiet rfl
  rw [turn_disconnect hs hj]
  exact .of_close (h.correlated.move hq) (h.guarded.move hq) (h.sealed.move hq h.guarded)
    ⟨hs, hj, rfl⟩ hl

/-- Whoever had a request under way has ended once all tasks wait, unless the peer held him up. -/
theorem Possible.ends_of_registered (h : Possible config c) (hl : c.life = .connected)
    (hs : c.stage n = .fresh) (hj : c.job n = .disconnect) (hc : (c.turn (.call n)).Settles c')
    {id : String} (hg : Registered c.journal m id) (hm : ¬ c.Stalled (.call m)) :
    c'.stage m = .done (.error .connectionClosed) := by
  have hd : Possible config (c.turn (.call n)) := h.onward ((Onward.refl c).turn _)
  have hr : Possible config c' := hd.onward hc.turns.onward
  have hp := h.past_disconnect hl hs hj
  obtain ⟨w, hw, rfl, -, -, hno⟩ := h.correlated.of_registered hg
  have hne : Task.call n ≠ .call m := by
    rintro ⟨⟩
    rw [phase_of_stage hs nofun] at hw
    cases hw
  have hst : (c.turn (.call n)).stage m = c.stage m := h.guarded.stage_turn h.sealed hne
  rcases stage_of_waiter? hw with ⟨s, hsm, hws⟩ | ⟨due, hsm⟩
  · have hx : c.peer.Takes s.rest := by
      by_contra hx
      exact hm ⟨s, hsm, hx⟩
    obtain ⟨-, hk⟩ := (h.lined.turn h.guarded h.sealed (.call n)).kept (.call m) hne
      (h.guarded.sender hsm).1
    obtain ⟨-, ⟨hs', hx'⟩ | hs'⟩ := hc.turns.sending hd hp (hst.trans hsm) hws ((hk _).2 hx) hno
    -- Were it still sending, it would have to be about to go on, as the peer does not hold it up.
    · refine absurd (hr.lined.woken _ (hr.guarded.sender hs').1) ?_
      rw [hc.ready]
      rintro (hx | ⟨s', hs'', hx⟩)
      · cases hx
      · obtain rfl : s = s' := Stage.send.inj (hs'.symm.trans hs'')
        exact hx hx'
    · exact hs'
  · obtain ⟨hp', hm' | hm'⟩ := hp.turns hc.turns (hst.trans hsm) hno
    · have hw := hr.alert.woken m w due nofun hm' (by rw [hp'.mailbox_of_await hm' hno]; nofun)
      rw [hc.ready] at hw
      cases hw
    · exact hm'

/-- So has the call that disconnects, if it does not wait for the write path or the peer. -/
theorem Possible.ends_disconnect (h : Possible config c) (hl : c.life = .connected)
    (hs : c.stage n = .fresh) (hj : c.job n = .disconnect) (hc : (c.turn (.call n)).Settles c')
    (hw : c.write.holder = none ∨ ∀ x, ¬ c'.Stalled x) (hp : c.peer.onShutdown ≠ .waits) :
    c'.stage n = .done (.ok .done) := by
  have hd : Possible config (c.turn (.call n)) := h.onward ((Onward.refl c).turn _)
  have hr : Possible config c' := hd.onward hc.turns.onward
  have hpast := h.past_disconnect hl hs hj
  have hq : c.Move { c with ready := c.ready.erase (.call n) } := .quiet rfl
  have hx := h.sealed.move hq h.guarded
  have hn : n < c.calls.length := lt_of_stage_ne_dropped (by simp [hs])
  cases hh : c.write.holder with
  | none =>
    have hjn : (c.turn (.call n)).Joining n := by
      rw [turn_disconnect hs hj]
      exact hx.joining_close hl hn hh hp
    exact (hc.turns.joining hd hpast hjn).stage_eq hc.ready
  | some t =>
    have hno : ∀ x, ¬ c'.Stalled x := hw.resolve_left (by rw [hh]; nofun)
    have htn : t ≠ .call n := by
      rintro rfl
      have hc := (h.lined.mem _).1 (WritePath.mem_line_of_holder hh)
      dsimp only [Contends] at hc
      rw [hs] at hc
      cases hc
    have hln : (c.turn (.call n)).Leaving n := by
      rw [turn_disconnect hs hj]
      exact hx.leaving_close hl hn hh htn
    have hps : (c.turn (.call n)).peer.onShutdown ≠ .waits :=
      (h.lined.turn h.guarded h.sealed (.call n)).shutdown ▸ hp
    rcases hc.turns.leaving hd hpast hps hln with hln | hjn
    · obtain ⟨x, hx⟩ := hr.lined.stalled (t := .call n) hc.ready (by
        dsimp only [Contends]
        rw [hln.call]
        rfl)
      exact absurd hx (hno x)
    · exact hjn.stage_eq hc.ready

/-- **Disconnecting drains what waits for a reply**, in whichever order the tasks take their turns
and whatever the reader takes up before it stops, and they do come to wait. -/
theorem Possible.drains (h : Possible config c) (hl : c.life = .connected)
    (hs : c.stage n = .fresh) (hj : c.job n = .disconnect) :
    (∃ c', (c.turn (.call n)).Settles c') ∧
      ∀ c', (c.turn (.call n)).Settles c' → c.Drained n c' := by
  have hd : Possible config (c.turn (.call n)) := h.onward ((Onward.refl c).turn _)
  refine ⟨⟨_, hd.settles⟩, fun c' hc => ?_⟩
  have ht : (c.turn (.call n)).now = c.now := (h.guarded.tends_turn h.sealed _).now
  exact ⟨(hc.turns.now hd).trans ht, fun _ _ => h.ends_of_registered hl hs hj hc,
    h.ends_disconnect hl hs hj hc⟩

theorem stage_start (c : Client) (job : Job) :
    (c.act (.start job)).stage c.calls.length = .fresh ∧
      (c.act (.start job)).job c.calls.length = job := by
  have hq : (c.act (.start job)).core = (c.addCall job).core := core_wake _ _
  rw [stage_eq hq, job_eq hq]
  unfold stage Client.job addCall
  simp

/-- A client with a ping that waits for its reply and another that is being written, whose peer has
begun to take bytes again. -/
def resuming : Client :=
  ((initial .default).performAll
    [.start .connect, .feed [.chunk ([0, 1, 1] ++ List.replicate 16 7)], .start (.operation .ping),
      .change ⟨some (some 3), none, none, none, none⟩, .start (.operation .ping)]).act
    (.change ⟨some none, none, none, none, none⟩)

theorem drains_resuming : (resuming.act (.start .disconnect)).life = .connected ∧
    (resuming.act (.start .disconnect)).write.holder = some (.call 2) ∧
    ¬ (resuming.act (.start .disconnect)).Stalled (.call 2) ∧
    (∃ c', ((resuming.act (.start .disconnect)).turn (.call resuming.calls.length)).Settles c') ∧
    ∀ c', ((resuming.act (.start .disconnect)).turn (.call resuming.calls.length)).Settles c' →
      (resuming.act (.start .disconnect)).Drained resuming.calls.length c' := by
  have hp : Possible .default (resuming.act (.start .disconnect)) :=
    (reachable_performAll _ _).possible.onward (((Onward.refl _).act _).act _)
  have hl : (resuming.act (.start .disconnect)).life = .connected := by decide +kernel
  have ht : (match (resuming.act (.start .disconnect)).stage 2 with
      | .send s => decide ((resuming.act (.start .disconnect)).peer.Takes s.rest)
      | _ => true) = true := by decide +kernel
  have hw : ¬ (resuming.act (.start .disconnect)).Stalled (.call 2) := by
    rintro ⟨s, hs, hx⟩
    rw [hs] at ht
    exact hx (of_decide_eq_true ht)
  obtain ⟨hs, hj⟩ := stage_start resuming .disconnect
  exact ⟨hl, by decide +kernel, hw, hp.drains hl hs hj⟩

/-- A client that has connected and is sending a ping to a peer that takes nothing, and that is about
to be disconnected. -/
def stalling : Client :=
  ((initial .default).performAll
    [.start .connect, .feed [.chunk ([0, 1, 1] ++ List.replicate 16 7)],
      .change ⟨some (some 0), none, none, none, none⟩,
      .start (.operation .ping)]).act (.start .disconnect)

theorem possible_stalling : Possible .default stalling :=
  (reachable_performAll _ _).possible.onward ((Onward.refl _).act _)

/-- A call that is writing does not end when the connection is closed, nor does the call that closes
it: both of them wait until the time for writing is up. -/
theorem stalling_not_drained : stalling.life = .connected ∧ Registered stalling.journal 1 "1" ∧
    (stalling.turn (.call 2)).Settles (stalling.turn (.call 2)).settle ∧
    ((stalling.turn (.call 2)).settle.stage 1).isOpen = true ∧
    ((stalling.turn (.call 2)).settle.stage 2).isOpen = true ∧
    (((stalling.turn (.call 2)).settle.perform (.advance 29999)).stage 1).isOpen = true ∧
    (((stalling.turn (.call 2)).settle.perform (.advance 30000)).stage 1).isOpen = false := by
  have hl : stalling.correlator.slots.lookup "1" = some ⟨0, none⟩ := by decide +kernel
  obtain ⟨m, w, -, -, -, hg, -⟩ := possible_stalling.correlated.of_lookup hl
  have hm : .registered 1 "1" ∈ stalling.journal := mem_registered_of_any (by decide +kernel)
  have h1 := possible_stalling.correlated.sameCall hg.mem hm
  subst h1
  exact ⟨by decide +kernel, hg, (possible_stalling.onward ((Onward.refl _).turn _)).settles,
    by decide +kernel, by decide +kernel, by decide +kernel, by decide +kernel⟩

end DocWire.Client
