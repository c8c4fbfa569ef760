import Mathlib.Data.List.Nodup
import DocWire.Proofs.Client.Turns
import DocWire.Proofs.Client.WritePath

/-! # Nobody oversleeps

A call that waits for a reply goes on only if it is woken. What is kept is that every call whose
mailbox is decided stands in line for its turn; only the call that is taking its turn is left out.
The tasks in line are those that there are, each at most once, so the line is no longer than the
number of tasks. -/

namespace DocWire

open DocWire.Correlator (Waiter Slot)

/-- Whether a task is the reader or one of the first calls. -/
def Task.Among (count : Nat) : Task → Prop
  | .reader => True
  | .call n => n < count

theorem Task.Among.mono {count count' : Nat} {t : Task} (h : t.Among count) (hc : count ≤ count') :
    t.Among count' := by
  cases t with
  | reader => trivial
  | call n => exact Nat.lt_of_lt_of_le h hc

/-- The number of a task, counting the reader. -/
def Task.number : Task → Nat
  | .reader => 0
  | .call n => n + 1

theorem Task.number_injective : Function.Injective Task.number := by
  intro t t' ht
  cases t <;> cases t' <;> simp [Task.number] at ht ⊢
  exact ht

namespace Client

/-- The tasks that wait for their turn, for the write path or for the time are tasks that there
are. -/
structure Orderly (c : Client) (count : Nat) : Prop where
  length : c.calls.length = count
  nodup : c.ready.Nodup
  ready : ∀ t ∈ c.ready, t.Among count
  queue : ∀ t ∈ c.write.queue, t.Among count
  timers : ∀ t ∈ c.timers, t.call < count

/-- Every call that waits for a reply and whose mailbox is decided is about to go on, but for the
one that is taking its turn. -/
structure Alert (c : Client) (count : Nat) (busy : Option Nat) : Prop extends Orderly c count where
  woken : ∀ n w due, busy ≠ some n → c.stage n = .await w due →
    c.correlator.mailbox w.ticket ≠ .vacant → .call n ∈ c.ready

variable {c c' : Client} {count n : Nat} {busy : Option Nat} {t : Task} {k : AfterClose}

theorem Orderly.of_eq (h : c.Orderly count) (hc : c'.calls.length = c.calls.length)
    (hr : c'.ready = c.ready) (hq : c'.write.queue = c.write.queue)
    (ht : ∀ t ∈ c'.timers, t ∈ c.timers) : c'.Orderly count :=
  ⟨hc.trans h.length, hr ▸ h.nodup, hr ▸ h.ready, hq ▸ h.queue, fun t hm => h.timers t (ht t hm)⟩

theorem Alert.of_eq (h : c.Alert count busy) (hc : c'.calls = c.calls) (hr : c'.ready = c.ready)
    (hq : c'.write.queue = c.write.queue) (ht : ∀ t ∈ c'.timers, t ∈ c.timers)
    (hk : c'.correlator = c.correlator) : c'.Alert count busy where
  toOrderly := h.toOrderly.of_eq (by rw [hc]) hr hq ht
  woken n w due hb hs hm := by
    rw [stage_congr hc] at hs
    rw [hk] at hm
    rw [hr]
    exact h.woken n w due hb hs hm

/-- No more tasks can go on than there are. -/
theorem Orderly.length_ready_le (h : c.Orderly count) : c.ready.length ≤ count + 1 := by
  have hs : c.ready.map Task.number ⊆ List.range (count + 1) := by
    intro i hm
    obtain ⟨t, ht, rfl⟩ := List.mem_map.1 hm
    have hc := h.ready t ht
    cases t with
    | reader => exact List.mem_range.2 (Nat.succ_pos _)
    | call n => exact List.mem_range.2 (Nat.succ_lt_succ hc)
  simpa using (h.nodup.map Task.number_injective).length_le_of_subset hs

/-! ### Waking -/

theorem mem_wake (c : Client) (t : Task) {x : Task} :
    x ∈ (c.wake t).ready ↔ x ∈ c.ready ∨ x = t := by
  unfold wake
  split
  next h => exact ⟨.inl, fun hx => hx.elim id fun hx => hx ▸ h⟩
  next => simp

theorem exists_ready_wake (c : Client) (t : Task) : ∃ l, c.wake t = { c with ready := l } := by
  unfold wake
  split
  · exact ⟨_, rfl⟩
  · exact ⟨_, rfl⟩

theorem exists_ready_wakeFirst (c : Client) (l : List Task) :
    ∃ l', c.wakeFirst l = { c with ready := l' } := by
  cases l with
  | nil => exact ⟨_, rfl⟩
  | cons t l => exact exists_ready_wake c t

theorem exists_ready_wakeCalls (c : Client) (p : Stage → Bool) :
    ∃ l, c.wakeCalls p = { c with ready := l } := by
  have hf : ∀ (ns : List Nat) (d : Client), (∃ l, d = { c with ready := l }) →
      ∃ l, ns.foldl (fun c n => if p (c.stage n) then c.wake (.call n) else c) d =
        { c with ready := l } := by
    intro ns
    induction ns with
    | nil => exact fun d hd => hd
    | cons n ns ih =>
      rintro d ⟨l, rfl⟩
      rw [List.foldl_cons]
      refine ih _ ?_
      split
      · exact exists_ready_wake _ _
      · exact ⟨l, rfl⟩
  exact hf _ c ⟨_, rfl⟩

theorem exists_ready_release (c : Client) :
    ∃ l, c.release = { c with write := c.write.release, ready := l } :=
  exists_ready_wakeFirst { c with write := c.write.release } c.write.queue

theorem exists_leaveWritePath (c : Client) : ∃ asked l,
    c.leaveWritePath = { c with write := c.write.leave, stopAsked := asked, ready := l } := by
  unfold leaveWritePath
  obtain ⟨l, hl⟩ := exists_ready_wake c.vacate .reader
  split
  · rw [hl]
    obtain ⟨l', hl'⟩ := exists_ready_wakeFirst { c.vacate with ready := l } c.write.queue
    exact ⟨_, l', hl'⟩
  · obtain ⟨l', hl'⟩ := exists_ready_wakeFirst c.vacate c.write.queue
    exact ⟨_, l', hl'⟩

theorem Orderly.wake (h : c.Orderly count) (ht : t.Among count) : (c.wake t).Orderly count := by
  have hr : (c.wake t).ready.Nodup := by
    unfold Client.wake
    split
    · exact h.nodup
    next hn => exact List.nodup_append.2 ⟨h.nodup, by simp, by rintro x hx y hy rfl; simp_all⟩
  have hq : (c.wake t).write.queue = c.write.queue ∧ (c.wake t).timers = c.timers := by
    unfold Client.wake
    split <;> exact ⟨rfl, rfl⟩
  refine ⟨(congrArg List.length (calls_eq (core_wake c t))).trans h.length, hr, fun x hx => ?_,
    hq.1 ▸ h.queue, hq.2 ▸ h.timers⟩
  rcases (mem_wake c t).1 hx with hx | rfl
  · exact h.ready x hx
  · exact ht

theorem correlator_eq (h : c.core = c'.core) : c.correlator = c'.correlator := by
  have hc := congrArg correlator h
  exact hc

theorem Alert.wake (h : c.Alert count busy) (ht : t.Among count) : (c.wake t).Alert count busy where
  toOrderly := h.toOrderly.wake ht
  woken n w due hb hs hm := by
    rw [stage_eq (core_wake c t)] at hs
    rw [correlator_eq (core_wake c t)] at hm
    exact (mem_wake c t).2 (.inl (h.woken n w due hb hs hm))

theorem Alert.wakeFirst (h : c.Alert count busy) {l : List Task} (hl : ∀ t ∈ l, t.Among count) :
    (c.wakeFirst l).Alert count busy := by
  cases l with
  | nil => exact h
  | cons t l => exact h.wake (hl t (by simp))

theorem Orderly.wakeCalls (h : c.Orderly count) (p : Stage → Bool) :
    (c.wakeCalls p).Orderly count ∧
      (∀ t ∈ c.ready, t ∈ (c.wakeCalls p).ready) ∧
      ∀ n < count, p (c.stage n) = true → .call n ∈ (c.wakeCalls p).ready := by
  have hf : ∀ (l : List Nat) (c : Client), c.Orderly count → (∀ n ∈ l, n < count) →
      (l.foldl (fun c n => if p (c.stage n) then c.wake (.call n) else c) c).Orderly count ∧
      (∀ t ∈ c.ready, t ∈
        (l.foldl (fun c n => if p (c.stage n) then c.wake (.call n) else c) c).ready) ∧
      ∀ n ∈ l, p (c.stage n) = true → .call n ∈
        (l.foldl (fun c n => if p (c.stage n) then c.wake (.call n) else c) c).ready := by
    intro l
    induction l with
    | nil => exact fun c h _ => ⟨h, fun _ => id, nofun⟩
    | cons m l ih =>
      intro c h hl
      rw [List.foldl_cons]
      by_cases hp : p (c.stage m) = true
      · rw [if_pos hp]
        obtain ⟨ho, hk, hw⟩ := ih (c.wake (.call m)) (h.wake (hl m (by simp)))
          fun n hn => hl n (by simp [hn])
        refine ⟨ho, fun t ht => hk t ((mem_wake _ _).2 (.inl ht)), fun n hn hs => ?_⟩
        rcases List.mem_cons.1 hn with rfl | hn
        · exact hk _ ((mem_wake _ _).2 (.inr rfl))
        · exact hw n hn (by rw [stage_eq (core_wake c _)]; exact hs)
      · rw [if_neg hp]
        obtain ⟨ho, hk, hw⟩ := ih c h fun n hn => hl n (by simp [hn])
        refine ⟨ho, hk, fun n hn hs => ?_⟩
        rcases List.mem_cons.1 hn with rfl | hn
        · exact absurd hs hp
        · exact hw n hn hs
  obtain ⟨ho, hk, hw⟩ := hf (List.range c.calls.length) c h
    fun n hn => h.length ▸ List.mem_range.1 hn
  exact ⟨ho, hk, fun n hn => hw n (List.mem_range.2 (h.length.symm ▸ hn))⟩

theorem Alert.wakeCalls (h : c.Alert count busy) (p : Stage → Bool) :
    (c.wakeCalls p).Alert count busy where
  toOrderly := (h.toOrderly.wakeCalls p).1
  woken n w due hb hs hm := by
    rw [stage_eq (core_wakeCalls c p)] at hs
    rw [correlator_eq (core_wakeCalls c p)] at hm
    exact (h.toOrderly.wakeCalls p).2.1 _ (h.woken n w due hb hs hm)

/-- **After the decided calls have been woken, nobody oversleeps.** -/
theorem Orderly.wakeDecided (h : c.Orderly count) : c.wakeDecided.Alert count none where
  toOrderly := (h.wakeCalls _).1
  woken n w due _ hs hm := by
    rw [stage_eq (core_wakeDecided c)] at hs
    rw [correlator_eq (core_wakeDecided c)] at hm
    refine (h.wakeCalls c.isDecided).2.2 n (h.length ▸ lt_of_stage_ne_dropped (by simp [hs])) ?_
    rw [hs]
    simpa [isDecided] using hm

/-- A call that does not wait for a reply need not be left out. -/
theorem Alert.rested (h : c.Alert count (some n)) (hs : ∀ w due, c.stage n ≠ .await w due) :
    c.Alert count none where
  toOrderly := h.toOrderly
  woken m w due _ hm := by
    refine h.woken m w due (fun hx => ?_) hm
    cases hx
    exact hs w due hm

/-! ### Stages and timers -/

theorem Orderly.setStage (h : c.Orderly count) (n : Nat) (s : Stage) :
    (c.setStage n s).Orderly count :=
  h.of_eq (length_setStage c n s) rfl rfl fun _ => id

theorem Alert.setStage (h : c.Alert count busy) {s : Stage} (hs : ∀ w due, s ≠ .await w due) :
    (c.setStage n s).Alert count busy where
  toOrderly := h.toOrderly.setStage n s
  woken m w due hb hm := by
    rw [stage_setStage] at hm
    split at hm
    · exact absurd hm (hs w due)
    · exact h.woken m w due hb hm

/-- A call that begins to wait takes its turn at the moment. -/
theorem Alert.toAwait (h : c.Alert count none) (w : Waiter) (due : Nat) :
    (c.setStage n (.await w due)).Alert count (some n) where
  toOrderly := h.toOrderly.setStage n _
  woken m w' due' hb hm := by
    rw [stage_setStage, if_neg fun hx => hb (by rw [hx.1])] at hm
    exact h.woken m w' due' nofun hm

theorem Orderly.clearTimer (h : c.Orderly count) (n : Nat) : (c.clearTimer n).Orderly count :=
  h.of_eq rfl rfl rfl fun _ ht => (List.mem_filter.1 ht).1

theorem Alert.clearTimer (h : c.Alert count busy) (n : Nat) : (c.clearTimer n).Alert count busy :=
  h.of_eq rfl rfl rfl (fun _ ht => (List.mem_filter.1 ht).1) rfl

theorem Alert.setTimer (h : c.Alert count busy) (hn : n < count) (due : Nat) :
    (c.setTimer n due).Alert count busy := by
  unfold Client.setTimer
  split
  · exact h
  · refine ⟨⟨h.length, h.nodup, h.ready, h.queue, fun t ht => ?_⟩, h.woken⟩
    rcases List.mem_append.1 ht with ht | ht
    · exact h.timers t ((List.mem_filter.1 ht).1)
    · rw [List.mem_singleton.1 ht]
      exact hn

theorem Alert.finish (h : c.Alert count busy) (n : Nat) (r : Except Failure Outcome) :
    (c.finish n r).Alert count busy := (h.clearTimer n).setStage nofun

theorem Alert.record (h : c.Alert count busy) (i : Incident) : (c.record i).Alert count busy :=
  h.of_eq rfl rfl rfl (fun _ => id) rfl

/-! ### The write path -/

theorem Alert.handOn (h : c.Alert count busy) {write : WritePath}
    (hq : ∀ t ∈ write.queue, t ∈ c.write.queue) : { c with write := write }.Alert count busy :=
  ⟨⟨h.length, h.nodup, h.ready, fun t ht => h.queue t (hq t ht), h.timers⟩, h.woken⟩

theorem mem_queue_release {w : WritePath} (ht : t ∈ w.release.queue) : t ∈ w.queue := by
  unfold WritePath.release at ht
  split at ht
  next hq => simp [hq] at ht
  next hq => rw [hq]; exact List.mem_cons_of_mem _ ht

theorem mem_queue_leave {w : WritePath} (ht : t ∈ w.leave.queue) : t ∈ w.queue := by
  unfold WritePath.leave at ht
  split at ht
  · rw [← WritePath.queue_dropHalf w]
    exact mem_queue_release (w := { w.dropHalf with torn := false }) ht
  · exact mem_queue_release ht

theorem Alert.release (h : c.Alert count busy) : c.release.Alert count busy :=
  (h.handOn fun _ => mem_queue_release).wakeFirst h.queue

theorem Alert.vacate (h : c.Alert count busy) : c.vacate.Alert count busy :=
  (h.handOn fun _ => mem_queue_leave).of_eq rfl rfl rfl (fun _ => id) rfl

theorem Alert.leaveWritePath (h : c.Alert count busy) : c.leaveWritePath.Alert count busy := by
  unfold Client.leaveWritePath
  refine Alert.wakeFirst ?_ h.queue
  split
  · exact h.vacate.wake trivial
  · exact h.vacate

theorem Alert.withdraw (h : c.Alert count busy) (t : Task) : (c.withdraw t).Alert count busy := by
  unfold Client.withdraw
  split
  · exact h.release
  · refine h.handOn fun x hx => ?_
    unfold WritePath.withdraw at hx
    split at hx
    · exact mem_queue_release hx
    · exact (List.mem_filter.1 hx).1

theorem Alert.acquire (h : c.Alert count busy) (ht : t.Among count) :
    { c with write := c.write.acquire t }.Alert count busy := by
  refine ⟨⟨h.length, h.nodup, h.ready, fun x hx => ?_, h.timers⟩, h.woken⟩
  unfold WritePath.acquire at hx
  split at hx
  · exact h.queue x hx
  · rcases List.mem_append.1 hx with hx | hx
    · exact h.queue x hx
    · rw [List.mem_singleton.1 hx]
      exact ht

end Client

end DocWire
