import DocWire.Proofs.Client.Tending
import DocWire.Proofs.Handshake.Pursuit

/-! # The line for the write path

Whoever asks for the write path stands in line until he has it, and whoever has it has a use for it:
he is about to go on, or the peer does not take what he writes (`Lined`). While a task takes its turn,
this holds of all others (`Minds`), and at the end of its turn it holds of the task itself (`Abides`).
As long as someone else has the write path, a turn does not change what the peer takes. -/

namespace DocWire

open DocWire.Correlator (Waiter)

namespace Stream.Sink

/-- The peer takes the bytes and lets them be flushed, all at once. -/
def Takes (s : Sink) (bs : List UInt8) : Prop := (s.write bs).1 = .all ∧ s.onFlush = .ready

instance (s : Sink) (bs : List UInt8) : Decidable (s.Takes bs) :=
  inferInstanceAs (Decidable (_ ∧ _))

variable {s : Sink} {bs rest : List UInt8}

theorem Stalls.not_takes (h : s.Stalls) (hn : bs ≠ []) : ¬ s.Takes bs := by
  obtain ⟨hb, hx⟩ := h
  obtain ⟨b, bs, rfl⟩ := List.exists_cons_of_ne_nil hn
  have hg : s.grant (bs.length + 1) = none := by
    unfold grant
    rw [hb]
    rfl
  simp [Takes, write, writeFor, hg, hx]

/-- Bytes that a write has left behind are not taken by the next one either. -/
theorem not_takes_of_waiting (hw : (s.write bs).1 = .waiting rest) :
    ¬ (s.write bs).2.Takes rest := by
  have hh := s.halts_write bs
  rw [hw] at hh
  exact hh.2.not_takes hh.1

theorem exists_writeFor (fuel : Nat) (s : Sink) (bs : List UInt8) :
    ∃ taken budget, (writeFor fuel s bs).2 = { s with taken := taken, budget := budget } := by
  induction fuel generalizing s bs with
  | zero => cases bs <;> exact ⟨_, _, rfl⟩
  | succ fuel ih =>
    cases bs with
    | nil => exact ⟨_, _, rfl⟩
    | cons b bs =>
      unfold writeFor
      split
      · split <;> exact ⟨_, _, rfl⟩
      · exact ⟨_, _, rfl⟩
      · exact ih _ _

theorem onFlush_write (s : Sink) (bs : List UInt8) : (s.write bs).2.onFlush = s.onFlush := by
  obtain ⟨_, _, h⟩ := exists_writeFor bs.length s bs
  unfold write
  rw [h]

theorem onShutdown_write (s : Sink) (bs : List UInt8) :
    (s.write bs).2.onShutdown = s.onShutdown := by
  obtain ⟨_, _, h⟩ := exists_writeFor bs.length s bs
  unfold write
  rw [h]

theorem fst_writeFor_askShutdown (fuel : Nat) (s : Sink) (bs : List UInt8) :
    (writeFor fuel s.askShutdown.2 bs).1 = (writeFor fuel s bs).1 := by
  induction fuel generalizing s bs with
  | zero => cases bs <;> rfl
  | succ fuel ih =>
    cases bs with
    | nil => rfl
    | cons b bs =>
      have hg : s.askShutdown.2.grant (b :: bs).length = s.grant (b :: bs).length := rfl
      have hb : s.askShutdown.2.beyond = s.beyond := rfl
      unfold writeFor
      rw [hg, hb]
      split
      · split <;> rfl
      · rfl
      · exact ih (s.take _) _

theorem takes_askShutdown : s.askShutdown.2.Takes bs ↔ s.Takes bs := by
  unfold Takes write
  rw [fst_writeFor_askShutdown]
  rfl

end Stream.Sink

theorem Handshake.Exchange.onShutdown_run (e : Handshake.Exchange) (s : Stream.Source)
    (w : Stream.Sink) : (e.run s w).2.2.onShutdown = w.onShutdown := by
  have hf : ∀ w : Stream.Sink, (Handshake.flushRequest s w).2.2.onShutdown = w.onShutdown := by
    intro w
    unfold Handshake.flushRequest
    split <;> rfl
  cases e with
  | writing rest =>
    have hw := w.onShutdown_write rest
    unfold run
    dsimp only
    generalize w.write rest = x at hw
    obtain ⟨written, w'⟩ := x
    cases written with
    | all => exact (hf w').trans hw
    | waiting _ => exact hw
    | nothing _ => exact hw
    | failed _ _ => exact hw
  | flushing => exact hf w
  | reading got => rfl

/-- Whether a call stands in line for the write path or has it. -/
def Stage.contends : Stage → Bool
  | .lock | .send _ | .closeLock _ => true
  | _ => false

namespace Client

/-- Whether a task stands in line for the write path or has it. -/
def Contends (c : Client) : Task → Prop
  | .reader => c.reader = .closeLock
  | .call n => (c.stage n).contends = true

/-- A call whose frame the peer does not take as it stands. -/
def Stalled (c : Client) : Task → Prop
  | .reader => False
  | .call n => ∃ s, c.stage n = .send s ∧ ¬ c.peer.Takes s.rest

/-- Those who stand in line have a use for the write path, and whoever has it is about to go on, or is
held up by the peer. -/
structure Lined (c : Client) : Prop where
  ordered : c.write.Ordered
  mem : ∀ x, x ∈ c.write.line ↔ c.Contends x
  woken : ∀ x, c.write.holder = some x → x ∈ c.ready ∨ c.Stalled x

/-- What a task that takes its turn leaves as it is: for all others, the line is what it should be; if
one of them had the write path, he still has it, and the peer takes what it took. -/
structure Minds (t : Task) (b c : Client) : Prop where
  length : c.calls.length = b.calls.length
  ordered : c.write.Ordered
  mem : ∀ x, t ≠ x → (x ∈ c.write.line ↔ c.Contends x)
  woken : ∀ x, t ≠ x → c.write.holder = some x → x ∈ c.ready ∨ c.Stalled x
  kept : ∀ x, t ≠ x → b.write.holder = some x →
    c.write.holder = some x ∧ ∀ bs, c.peer.Takes bs ↔ b.peer.Takes bs
  shutdown : c.peer.onShutdown = b.peer.onShutdown

/-- At the end of its turn the task has its place in the line as well. -/
structure Abides (t : Task) (b c : Client) : Prop extends Minds t b c where
  own : t ∈ c.write.line ↔ c.Contends t
  awake : c.write.holder = some t → t ∈ c.ready ∨ c.Stalled t

variable {b c c' : Client} {n : Nat} {t : Task} {k : AfterClose}

theorem Lined.minds (h : Lined c) (t : Task) : Minds t c c :=
  ⟨rfl, h.ordered, fun x _ => h.mem x, fun x _ => h.woken x, fun _ _ hh => ⟨hh, fun _ => .rfl⟩, rfl⟩

theorem Abides.lined (h : Abides t b c) : Lined c where
  ordered := h.ordered
  mem x := by
    by_cases hx : t = x
    · exact hx ▸ h.own
    · exact h.mem x hx
  woken x := by
    by_cases hx : t = x
    · exact hx ▸ h.awake
    · exact h.woken x hx

theorem contends_congr (hs : ∀ m, t ≠ .call m → c'.stage m = c.stage m)
    (hd : t ≠ .reader → c'.reader = c.reader) {x : Task} (hx : t ≠ x) :
    c'.Contends x ↔ c.Contends x := by
  cases x with
  | reader =>
    dsimp only [Contends]
    rw [hd hx]
  | call m =>
    dsimp only [Contends]
    rw [hs m hx]

theorem stalled_congr (hs : ∀ m, t ≠ .call m → c'.stage m = c.stage m) (hp : c'.peer = c.peer)
    {x : Task} (hx : t ≠ x) : c'.Stalled x ↔ c.Stalled x := by
  cases x with
  | reader => exact .rfl
  | call m =>
    dsimp only [Stalled]
    rw [hs m hx, hp]

theorem mem_ready_wakeFirst (c : Client) {l : List Task} {x : Task} (hx : l.head? = some x) :
    x ∈ (c.wakeFirst l).ready := by
  cases l with
  | nil => cases hx
  | cons y l => exact (mem_wake c y).2 (.inr (Option.some.inj hx).symm)

theorem not_contends_setStage {s : Stage} (hs : s.contends = false) :
    ¬ (c.setStage n s).Contends (.call n) := by
  dsimp only [Contends]
  rw [stage_setStage]
  split
  · simp [hs]
  next hn =>
    intro hx
    refine hn ⟨rfl, lt_of_stage_ne_dropped fun hd => ?_⟩
    rw [hd] at hx
    cases hx

namespace Minds

theorem of_eq (h : Minds t b c) (hl : c'.calls.length = c.calls.length)
    (hh : c'.write.holder = c.write.holder) (hq : c'.write.queue = c.write.queue)
    (hs : ∀ m, t ≠ .call m → c'.stage m = c.stage m) (hd : t ≠ .reader → c'.reader = c.reader)
    (hr : ∀ x ∈ c.ready, x ∈ c'.ready) (hp : c'.peer = c.peer) : Minds t b c' where
  length := hl.trans h.length
  ordered := h.ordered.of_eq hh hq
  mem x hx := by
    have hm : c'.write.line = c.write.line := by
      unfold WritePath.line
      rw [hh, hq]
    rw [hm, contends_congr hs hd hx]
    exact h.mem x hx
  woken x hx hn := by
    rw [stalled_congr hs hp hx]
    exact (h.woken x hx (hh ▸ hn)).imp_left (hr x)
  kept x hx hn := by
    rw [hh, hp]
    exact h.kept x hx hn
  shutdown := hp ▸ h.shutdown

theorem same (h : Minds t b c) (hc : c'.calls = c.calls) (hh : c'.write.holder = c.write.holder)
    (hq : c'.write.queue = c.write.queue) (hd : c'.reader = c.reader) (hr : c'.ready = c.ready)
    (hp : c'.peer = c.peer) : Minds t b c' :=
  h.of_eq (congrArg _ hc) hh hq (fun _ _ => stage_congr hc _) (fun _ => hd) (fun _ => (hr ▸ ·)) hp

theorem of_ready (h : Minds t b c) (hq : ∃ l, c' = { c with ready := l })
    (hr : ∀ x ∈ c.ready, x ∈ c'.ready) : Minds t b c' := by
  obtain ⟨l, rfl⟩ := hq
  exact h.of_eq rfl rfl rfl (fun _ _ => rfl) (fun _ => rfl) hr rfl

end Minds

theorem contends_core (h : c'.core = c.core) (t : Task) : c'.Contends t ↔ c.Contends t := by
  cases t with
  | reader =>
    dsimp only [Contends]
    rw [reader_eq h]
  | call n =>
    dsimp only [Contends]
    rw [stage_eq h]

theorem Abides.of_eq (h : Abides t b c) (hc : c'.calls = c.calls)
    (hh : c'.write.holder = c.write.holder) (hq : c'.write.queue = c.write.queue)
    (hd : c'.reader = c.reader) (hr : ∀ x ∈ c.ready, x ∈ c'.ready) (hp : c'.peer = c.peer) :
    Abides t b c' where
  toMinds := h.toMinds.of_eq (congrArg _ hc) hh hq (fun _ _ => stage_congr hc _) (fun _ => hd) hr hp
  own := by
    have hl : c'.write.line = c.write.line := by
      unfold WritePath.line
      rw [hh, hq]
    rw [hl, h.own]
    cases t with
    | reader =>
      dsimp only [Contends]
      rw [hd]
    | call n =>
      dsimp only [Contends]
      rw [stage_congr hc]
  awake ht := by
    refine (h.awake (hh ▸ ht)).imp (hr t) fun hs => ?_
    cases t with
    | reader => exact hs
    | call n =>
      obtain ⟨s, hs, hx⟩ := hs
      exact ⟨s, (stage_congr hc n).trans hs, hp ▸ hx⟩

theorem Abides.of_ready (h : Abides t b c) (hq : ∃ l, c' = { c with ready := l })
    (hr : ∀ x ∈ c.ready, x ∈ c'.ready) : Abides t b c' := by
  obtain ⟨l, rfl⟩ := hq
  exact h.of_eq rfl rfl rfl rfl hr rfl

theorem Abides.wakeCalls (h : Abides t b c) (p : Stage → Bool) : Abides t b (c.wakeCalls p) :=
  h.of_ready (exists_ready_wakeCalls c p) ((Tends.refl .reader c).wakeCalls p).ready

namespace Minds

/-- A task that has the write path may do anything to what the peer takes. -/
theorem of_holder (h : Minds t b c) (ht : c.write.holder = some t)
    (hl : c'.calls.length = c.calls.length) (hh : c'.write.holder = c.write.holder)
    (hq : c'.write.queue = c.write.queue) (hs : ∀ m, t ≠ .call m → c'.stage m = c.stage m)
    (hd : t ≠ .reader → c'.reader = c.reader)
    (hp : c'.peer.onShutdown = c.peer.onShutdown) : Minds t b c' where
  length := hl.trans h.length
  ordered := h.ordered.of_eq hh hq
  mem x hx := by
    have hm : c'.write.line = c.write.line := by
      unfold WritePath.line
      rw [hh, hq]
    rw [hm, contends_congr hs hd hx]
    exact h.mem x hx
  woken x hx hn := absurd (Option.some.inj (ht.symm.trans (hh.symm.trans hn))) hx
  kept x hx hn := absurd (Option.some.inj (ht.symm.trans (h.kept x hx hn).1)) hx
  shutdown := hp.trans h.shutdown

theorem of_nobody (h : Minds t b c) (hn : c.write.line = []) (hl : c'.calls.length = c.calls.length)
    (hh : c'.write.holder = c.write.holder) (hq : c'.write.queue = c.write.queue)
    (hs : ∀ m, t ≠ .call m → c'.stage m = c.stage m) (hd : c'.reader ≠ .closeLock)
    (hp : c'.peer.onShutdown = c.peer.onShutdown) : Minds t b c' := by
  have hm : c'.write.line = [] := by
    unfold WritePath.line at hn ⊢
    rw [hh, hq, hn]
  have hx : ∀ {w : WritePath} {x : Task}, w.line = [] → w.holder ≠ some x := fun hw hx => by
    have hx := WritePath.mem_line_of_holder hx
    rw [hw] at hx
    cases hx
  refine ⟨hl.trans h.length, h.ordered.of_eq hh hq, fun x ht => ?_, fun x _ hw => absurd hw (hx hm),
    fun x ht hw => absurd (h.kept x ht hw).1 (hx hn), hp.trans h.shutdown⟩
  have hc := h.mem x ht
  rw [hn] at hc
  rw [hm]
  refine ⟨nofun, fun hx => ?_⟩
  cases x with
  | reader => exact absurd hx hd
  | call m =>
    dsimp only [Contends] at hc hx
    rw [hs m ht] at hx
    exact hc.2 hx

theorem abides (h : Minds t b c) (ho : t ∉ c.write.line) (hc : ¬ c.Contends t) : Abides t b c :=
  ⟨h, iff_of_false ho hc, fun hh => absurd (WritePath.mem_line_of_holder hh) ho⟩

/-! ### Waking, stages and timers -/

theorem wake (h : Minds t b c) (x : Task) : Minds t b (c.wake x) :=
  h.of_ready (exists_ready_wake c x) fun _ hy => (mem_wake c x).2 (.inl hy)

theorem wakeCalls (h : Minds t b c) (p : Stage → Bool) : Minds t b (c.wakeCalls p) :=
  h.of_ready (exists_ready_wakeCalls c p) ((Tends.refl .reader c).wakeCalls p).ready

theorem wakeDecided (h : Minds t b c) : Minds t b c.wakeDecided := h.wakeCalls _

theorem setStage (h : Minds (.call n) b c) (s : Stage) : Minds (.call n) b (c.setStage n s) := by
  refine h.of_eq (length_setStage c n s) rfl rfl (fun m hm => ?_) (fun _ => rfl) (fun _ => id) rfl
  rw [stage_setStage, if_neg fun hx => hm (by rw [hx.1])]

theorem setReader (h : Minds .reader b c) (r : ReaderStage) :
    Minds .reader b { c with reader := r } :=
  h.of_eq rfl rfl rfl (fun _ _ => rfl) (fun hx => absurd rfl hx) (fun _ => id) rfl

theorem clearTimer (h : Minds t b c) (n : Nat) : Minds t b (c.clearTimer n) :=
  h.same rfl rfl rfl rfl rfl rfl

theorem setTimer (h : Minds t b c) (n due : Nat) : Minds t b (c.setTimer n due) := by
  unfold Client.setTimer
  split
  · exact h
  · exact h.same rfl rfl rfl rfl rfl rfl

theorem record (h : Minds t b c) (i : Incident) : Minds t b (c.record i) :=
  h.same rfl rfl rfl rfl rfl rfl

theorem setLife (h : Minds t b c) (l : Life) : Minds t b { c with life := l } :=
  h.same rfl rfl rfl rfl rfl rfl

theorem askStop (h : Minds t b c) : Minds t b c.askStop := by
  have hs : Minds t b { c with stopAsked := true } := h.same rfl rfl rfl rfl rfl rfl
  exact hs.wake .reader

/-! ### The write path -/

/-- The write path goes from the task to the first of those who wait for it, and he is woken. -/
theorem handOn (h : Minds t b c) (ht : c.write.holder = some t) (hc : c'.calls = c.calls)
    (hd : c'.reader = c.reader) (hp : c'.peer = c.peer) (hw : c'.write.Ordered)
    (hl : c'.write.line = c.write.queue) (hh : c'.write.holder = c.write.queue.head?)
    (hr : ∀ x, c.write.queue.head? = some x → x ∈ c'.ready) :
    Minds t b c' ∧ t ∉ c'.write.line := by
  refine ⟨⟨(congrArg _ hc).trans h.length, hw, fun x hx => ?_, fun x hx hn => ?_, fun x hx hn => ?_,
    hp ▸ h.shutdown⟩, ?_⟩
  · rw [hl, h.ordered.mem_queue_iff ht, contends_congr (fun m _ => stage_congr hc m) (fun _ => hd) hx,
      ← h.mem x hx]
    exact and_iff_left (Ne.symm hx)
  · exact .inl (hr x (hh ▸ hn))
  · exact absurd (Option.some.inj (ht.symm.trans (h.kept x hx hn).1)) hx
  · rw [hl, h.ordered.mem_queue_iff ht]
    exact fun hx => hx.2 rfl

theorem release (h : Minds t b c) (ht : c.write.holder = some t) :
    Minds t b c.release ∧ t ∉ c.release.write.line := by
  have hr : ∀ x, c.write.queue.head? = some x → x ∈ c.release.ready :=
    fun x hx => mem_ready_wakeFirst _ hx
  obtain ⟨l, hl⟩ := exists_ready_release c
  rw [hl] at hr ⊢
  exact h.handOn ht rfl rfl rfl h.ordered.release (WritePath.line_release _)
    (WritePath.holder_release _) hr

theorem leaveWritePath (h : Minds t b c) (ht : c.write.holder = some t) :
    Minds t b c.leaveWritePath ∧ t ∉ c.leaveWritePath.write.line := by
  have hr : ∀ x, c.write.queue.head? = some x → x ∈ c.leaveWritePath.ready :=
    fun x hx => mem_ready_wakeFirst _ hx
  obtain ⟨asked, l, hl⟩ := exists_leaveWritePath c
  rw [hl] at hr ⊢
  exact h.handOn ht rfl rfl rfl h.ordered.leave (WritePath.line_leave _)
    (WritePath.holder_leave _) hr

theorem withdraw (h : Minds t b c) : Minds t b (c.withdraw t) ∧ t ∉ (c.withdraw t).write.line := by
  unfold Client.withdraw
  split
  next ht => exact h.release ((holds_iff c t).1 ht)
  next ht =>
    have ht' : c.write.holder ≠ some t := fun hh => ht ((holds_iff c t).2 hh)
    have hh : (c.write.withdraw t).holder = c.write.holder := by
      unfold WritePath.withdraw
      rw [if_neg ht']
    refine ⟨⟨h.length, h.ordered.withdraw t, fun x hx => ?_, fun x hx hn => ?_, fun x hx hn => ?_,
      h.shutdown⟩, ?_⟩
    · rw [h.ordered.mem_line_withdraw, h.mem x hx]
      exact and_iff_left (Ne.symm hx)
    · exact h.woken x hx (hh ▸ hn)
    · obtain ⟨hc, hp⟩ := h.kept x hx hn
      exact ⟨hh.trans hc, hp⟩
    · rw [h.ordered.mem_line_withdraw]
      exact fun hx => hx.2 rfl

theorem acquire (h : Minds t b c) (ho : t ∉ c.write.line) :
    Minds t b { c with write := c.write.acquire t } := by
  have hh : ∀ {x}, c.write.holder = some x → (c.write.acquire t).holder = some x := fun hx => by
    rw [WritePath.holder_acquire, hx]
    rfl
  refine ⟨h.length, h.ordered.acquire ho, fun x hx => ?_, fun x hx hn => ?_, fun x hx hn => ?_,
    h.shutdown⟩
  · rw [h.ordered.line_acquire, List.mem_append, List.mem_singleton, or_iff_left (Ne.symm hx)]
    exact h.mem x hx
  · refine h.woken x hx ?_
    rw [WritePath.holder_acquire] at hn
    cases hw : c.write.holder with
    | none =>
      rw [hw] at hn
      exact absurd (Option.some.inj hn) hx
    | some y =>
      rw [hw] at hn
      exact hn
  · obtain ⟨hc, hp⟩ := h.kept x hx hn
    exact ⟨hh hc, hp⟩

end Minds

end Client

end DocWire
