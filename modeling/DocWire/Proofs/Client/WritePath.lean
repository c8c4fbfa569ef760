import DocWire.Client.State

/-! # The write path

What the operations of the write path do to each part of it. Nobody who asks for the lock, hands it
on or gives it up touches the counter of request ids; the writing half of the stream goes only when
it is dropped, or a torn write path is left. The lock stays where it is, is let go, or is given to a
task, which is then the last to have taken it (`Passes`). -/

namespace DocWire

namespace WritePath

variable (w : WritePath) (t : Task)

/-! ### What is left alone -/

@[simp] theorem nextId_acquire : (w.acquire t).nextId = w.nextId := by
  unfold acquire; split <;> rfl

@[simp] theorem nextId_release : w.release.nextId = w.nextId := by
  unfold release; split <;> rfl

@[simp] theorem nextId_dropHalf : w.dropHalf.nextId = w.nextId := by
  unfold dropHalf; split <;> rfl

@[simp] theorem nextId_leave : w.leave.nextId = w.nextId := by
  unfold leave; split <;> simp

@[simp] theorem nextId_withdraw : (w.withdraw t).nextId = w.nextId := by
  unfold withdraw; split <;> simp

@[simp] theorem half_acquire : (w.acquire t).half = w.half := by
  unfold acquire; split <;> rfl

@[simp] theorem half_release : w.release.half = w.half := by
  unfold release; split <;> rfl

@[simp] theorem half_withdraw : (w.withdraw t).half = w.half := by
  unfold withdraw; split <;> simp

@[simp] theorem torn_acquire : (w.acquire t).torn = w.torn := by
  unfold acquire; split <;> rfl

@[simp] theorem torn_release : w.release.torn = w.torn := by
  unfold release; split <;> rfl

@[simp] theorem torn_withdraw : (w.withdraw t).torn = w.torn := by
  unfold withdraw; split <;> simp

@[simp] theorem torn_dropHalf : w.dropHalf.torn = w.torn := by
  unfold dropHalf; split <;> rfl

@[simp] theorem holder_dropHalf : w.dropHalf.holder = w.holder := by
  unfold dropHalf; split <;> rfl

@[simp] theorem queue_dropHalf : w.dropHalf.queue = w.queue := by
  unfold dropHalf; split <;> rfl

@[simp] theorem takers_dropHalf : w.dropHalf.takers = w.takers := by
  unfold dropHalf; split <;> rfl

/-! ### Where the writing half goes -/

theorem half_dropHalf : w.dropHalf.half = if w.half = .held then .gone else w.half := by
  unfold dropHalf
  split
  next h => simp [h]
  next h => rw [if_neg h]

theorem half_leave : w.leave.half = if w.torn = true ∧ w.half = .held then .gone else w.half := by
  unfold leave
  split
  next h => simp [h, half_dropHalf]
  next h => simp [h]

@[simp] theorem torn_leave : w.leave.torn = false := by
  unfold leave
  split
  next h => simp
  next h => simpa using h

/-! ### Where the lock goes -/

variable {w} {w' : WritePath} {t}

/-- How the lock can have changed hands. -/
inductive Passes (w w' : WritePath) : Prop
  | stays (hh : w'.holder = w.holder) (ht : w'.takers = w.takers)
  | freed (hh : w'.holder = none) (ht : w'.takers = w.takers)
  | given (t : Task) (hh : w'.holder = some t) (ht : w'.takers = w.takers ++ [t])

theorem Passes.congr {w₁ : WritePath} (h : w.Passes w') (hh : w.holder = w₁.holder)
    (ht : w.takers = w₁.takers) : w₁.Passes w' := by
  cases h with
  | stays hh' ht' => exact .stays (hh'.trans hh) (ht'.trans ht)
  | freed hh' ht' => exact .freed hh' (ht'.trans ht)
  | given t hh' ht' => exact .given t hh' (ht'.trans (congrArg (· ++ [t]) ht))

theorem passes_acquire (w : WritePath) (t : Task) : w.Passes (w.acquire t) := by
  unfold acquire
  split
  · exact .given t rfl rfl
  · exact .stays rfl rfl

theorem passes_release (w : WritePath) : w.Passes w.release := by
  unfold release
  split
  · exact .freed rfl rfl
  · exact .given _ rfl rfl

theorem passes_leave (w : WritePath) : w.Passes w.leave := by
  unfold leave
  split
  · have hp := passes_release { w.dropHalf with torn := false }
    cases hp with
    | stays hh ht => exact .stays (hh.trans (holder_dropHalf w)) (ht.trans (takers_dropHalf w))
    | freed hh ht => exact .freed hh (ht.trans (takers_dropHalf w))
    | given t hh ht => exact .given t hh (ht.trans (congrArg (· ++ [t]) (takers_dropHalf w)))
  · exact passes_release w

theorem passes_withdraw (w : WritePath) (t : Task) : w.Passes (w.withdraw t) := by
  unfold withdraw
  split
  · exact passes_release w
  · exact .stays rfl rfl

/-! ### Who stands in line -/

/-- Whoever has the lock, and behind him those who wait for it. -/
def line (w : WritePath) : List Task := w.holder.toList ++ w.queue

theorem line_of_holder (hh : w.holder = some t) : w.line = t :: w.queue := by
  unfold line
  rw [hh]
  rfl

theorem mem_line_of_holder (hh : w.holder = some t) : t ∈ w.line := by
  rw [line_of_holder hh]
  exact List.mem_cons_self

theorem holder_acquire (w : WritePath) (t : Task) : (w.acquire t).holder = w.holder.or (some t) := by
  unfold acquire
  split
  next hn => rw [hn]; rfl
  next hs => rw [hs]; rfl

theorem holder_release (w : WritePath) : w.release.holder = w.queue.head? := by
  unfold release
  split
  next hq => rw [hq]; rfl
  next hq => rw [hq]; rfl

theorem line_release (w : WritePath) : w.release.line = w.queue := by
  unfold release
  split
  next hq => exact (congrArg (none.toList ++ ·) hq).trans hq.symm
  next hq => exact hq.symm

theorem leave_eq_release (w : WritePath) :
    ∃ v : WritePath, w.leave = v.release ∧ v.queue = w.queue ∧ v.holder = w.holder := by
  unfold leave
  split
  · exact ⟨_, rfl, queue_dropHalf w, holder_dropHalf w⟩
  · exact ⟨w, rfl, rfl, rfl⟩

theorem holder_leave (w : WritePath) : w.leave.holder = w.queue.head? := by
  obtain ⟨v, hv, hq, -⟩ := leave_eq_release w
  rw [hv, holder_release, hq]

theorem line_leave (w : WritePath) : w.leave.line = w.queue := by
  obtain ⟨v, hv, hq, -⟩ := leave_eq_release w
  rw [hv, line_release, hq]

/-- Nobody waits for a lock that is free, and nobody stands in line twice. -/
structure Ordered (w : WritePath) : Prop where
  free : w.holder = none → w.queue = []
  nodup : w.line.Nodup

namespace Ordered

variable {x : Task}

theorem of_eq (h : w.Ordered) (hh : w'.holder = w.holder) (hq : w'.queue = w.queue) :
    w'.Ordered := by
  refine ⟨fun hn => hq.trans (h.free (hh.symm.trans hn)), ?_⟩
  unfold line
  rw [hh, hq]
  exact h.nodup

theorem nodup_queue (h : w.Ordered) : w.queue.Nodup := (List.nodup_append.1 h.nodup).2.1

/-- Behind the holder stand all the others. -/
theorem mem_queue_iff (h : w.Ordered) (hh : w.holder = some t) :
    x ∈ w.queue ↔ x ∈ w.line ∧ x ≠ t := by
  have hd := h.nodup
  rw [line_of_holder hh] at hd ⊢
  refine ⟨fun hx => ⟨List.mem_cons_of_mem t hx, ?_⟩, fun ⟨hx, ht⟩ => ?_⟩
  · rintro rfl
    exact (List.nodup_cons.1 hd).1 hx
  · exact (List.mem_cons.1 hx).resolve_left ht

theorem release (h : w.Ordered) : w.release.Ordered := by
  refine ⟨fun hn => ?_, ?_⟩
  · rw [holder_release, List.head?_eq_none_iff] at hn
    have hl := line_release w
    rw [hn] at hl
    exact (List.append_eq_nil_iff.1 hl).2
  · rw [line_release]
    exact h.nodup_queue

theorem leave (h : w.Ordered) : w.leave.Ordered := by
  obtain ⟨v, hv, hq, hh⟩ := leave_eq_release w
  rw [hv]
  exact (h.of_eq hh hq).release

theorem line_acquire (h : w.Ordered) (t : Task) : (w.acquire t).line = w.line ++ [t] := by
  unfold acquire
  split
  next hn =>
    unfold line give
    dsimp only
    rw [hn, h.free hn]
    rfl
  next => exact (List.append_assoc _ _ _).symm

theorem acquire (h : w.Ordered) (ht : t ∉ w.line) : (w.acquire t).Ordered := by
  refine ⟨fun hn => ?_, ?_⟩
  · unfold WritePath.acquire at hn
    split at hn
    · cases hn
    next hs => rw [hs] at hn; cases hn
  · rw [h.line_acquire, List.nodup_append]
    refine ⟨h.nodup, by simp, fun x hx y hy => ?_⟩
    rw [List.mem_singleton.1 hy]
    rintro rfl
    exact ht hx

theorem mem_line_withdraw (h : w.Ordered) :
    x ∈ (w.withdraw t).line ↔ x ∈ w.line ∧ x ≠ t := by
  unfold WritePath.withdraw
  split
  next hh => rw [line_release, h.mem_queue_iff hh]
  next hh =>
    unfold line
    dsimp only
    have hx : w.holder = some x → x ≠ t := by
      rintro hx rfl
      exact hh hx
    rw [List.mem_append, List.mem_append, List.mem_filter, Option.mem_toList, bne_iff_ne,
      or_and_right, and_iff_left_of_imp hx]

theorem withdraw (h : w.Ordered) (t : Task) : (w.withdraw t).Ordered := by
  unfold WritePath.withdraw
  split
  · exact h.release
  · refine ⟨fun hn => ?_, ?_⟩
    · dsimp only at hn ⊢
      rw [h.free hn]
      rfl
    · exact h.nodup.sublist ((List.Sublist.refl _).append List.filter_sublist)

end Ordered

end WritePath

end DocWire
