import DocWire.Proofs.Client.Frames
import DocWire.Proofs.Client.Turns
import DocWire.Proofs.Client.WritePath

/-! # The write path is guarded

Only the holder of the write path sends, only while the writing half of the stream is in the write
path and the client is held; and a write path is torn only by a frame that is being sent. The
writing half goes from the handshake into the write path, from there into the hands of whoever shuts
it down, and is gone after that: at each of these places only some stages are possible (`Allows`).
Once the client has been let go, nobody gets in line for the write path any more. -/

namespace DocWire

open DocWire.Correlator (Waiter)

/-- Whether a call can be at a stage while the writing half is at a place. -/
def WriteHalf.Allows (half : WriteHalf) : Stage → Prop
  | .handshake _ _ => half = .unsplit
  | .send _ => half = .held
  | .closeShutdown _ => half = .leaving ∨ half = .gone
  | _ => True

/-- Whether a stage has nothing to do with the stream. -/
def Stage.Remote : Stage → Prop
  | .handshake _ _ | .lock | .send _ | .closeShutdown _ => False
  | _ => True

theorem WriteHalf.allows_of_remote {half : WriteHalf} {s : Stage} (h : s.Remote) :
    half.Allows s := by
  cases s <;> trivial

namespace Client

/-- **The invariant of the write path.** -/
structure Guarded (c : Client) : Prop where
  fits : ∀ n, c.write.half.Allows (c.stage n)
  sender : ∀ {n s}, c.stage n = .send s → c.write.holder = some (.call n) ∧ c.held = true ∧
    c.write.torn = (!s.rest.isEmpty && decide (s.rest.length < s.size))
  torn : c.write.torn = true → ∃ n s, c.stage n = .send s
  shaking : ∀ {n m e due e' due'}, c.stage n = .handshake e due → c.stage m = .handshake e' due' →
    n = m
  shutting : c.reader = .closeShutdown → c.write.half = .leaving ∨ c.write.half = .gone
  closing : c.reader = .closeLock ∨ c.reader = .closeShutdown → c.life ≠ .connected
  young : c.write.half = .unused ∨ c.write.half = .unsplit → c.session = none
  bound : c.write.half = .held → c.session ≠ none
  left : c.held = false → c.write.half = .held → c.life ≠ .connected ∧ ∀ n, c.stage n ≠ .lock

/-- What the invariant of the write path depends on. -/
def outline (c : Client) : Client :=
  { c.core with
    now := 0
    peer := .eager
    correlator := .empty
    routes := .empty
    journal := []
    write := { c.write with queue := [], takers := [], nextId := 0 } }

variable {c c' c₁ d : Client} {n m : Nat} {t : Task} {s s' : Stage}

/-! ### Who sends -/

theorem Guarded.congr (h : Guarded c) (hq : c.outline = c'.outline) : Guarded c' := by
  have ho : Guarded c.outline :=
    ⟨h.fits, h.sender, h.torn, h.shaking, h.shutting, h.closing, h.young, h.bound, h.left⟩
  rw [hq] at ho
  exact ⟨ho.fits, ho.sender, ho.torn, ho.shaking, ho.shutting, ho.closing, ho.young, ho.bound,
    ho.left⟩

theorem Guarded.half_of_send (h : Guarded c) {s : Sending} (hs : c.stage n = .send s) :
    c.write.half = .held := by
  have hf := h.fits n
  rwa [hs] at hf

theorem Guarded.half_of_handshake (h : Guarded c) {e : Handshake.Exchange} {due : Nat}
    (hs : c.stage n = .handshake e due) : c.write.half = .unsplit := by
  have hf := h.fits n
  rwa [hs] at hf

/-- Nobody but the holder of the write path sends. -/
theorem Guarded.eq_of_send (h : Guarded c) (hh : c.holds t = true) {s : Sending}
    (hs : c.stage n = .send s) : t = .call n := by
  have hh : c.write.holder = some t := by simpa [holds] using hh
  have hn := (h.sender hs).1
  rw [hh] at hn
  exact Option.some.inj hn

/-- Nobody sends unless the writing half is in the write path. -/
theorem Guarded.ne_send_of_half (h : Guarded c) (hw : c.write.half ≠ .held) (n : Nat)
    (s : Sending) : c.stage n ≠ .send s := fun hs => hw (h.half_of_send hs)

theorem Guarded.not_torn (h : Guarded c) (hn : ∀ n s, c.stage n ≠ .send s) :
    c.write.torn = false := by
  cases ht : c.write.torn with
  | false => rfl
  | true =>
    obtain ⟨n, s, hs⟩ := h.torn ht
    exact absurd hs (hn n s)

/-! ### Stages -/

theorem stage_setStage_cases {i : Nat} {s₀ : Stage} (h : (c.setStage n s).stage i = s₀) :
    i = n ∧ s₀ = s ∨ c.stage i = s₀ := by
  rw [stage_setStage] at h
  split at h
  next hi => exact .inl ⟨hi.1, h.symm⟩
  next => exact .inr h

theorem ne_of_setStage_remote {i : Nat} {s₀ : Stage} (hr : s.Remote) (hs : ¬ s₀.Remote)
    (h : (c.setStage n s).stage i = s₀) : c.stage i = s₀ :=
  (stage_setStage_cases h).resolve_left fun hx => hs (hx.2 ▸ hr)

/-- A call that does not send leaves the stream behind. -/
theorem Guarded.setStage (h : Guarded c) (hr : s.Remote) (hn : ∀ s', c.stage n ≠ .send s') :
    Guarded (c.setStage n s) where
  fits i := by
    rw [stage_setStage]
    split
    · exact WriteHalf.allows_of_remote hr
    · exact h.fits i
  sender hs := h.sender (ne_of_setStage_remote hr id hs)
  torn ht := by
    obtain ⟨i, s', hs⟩ := h.torn ht
    refine ⟨i, s', ?_⟩
    rw [stage_setStage, if_neg fun hx : i = n ∧ _ => hn s' (hx.1 ▸ hs)]
    exact hs
  shaking hs hm := h.shaking (ne_of_setStage_remote hr id hs) (ne_of_setStage_remote hr id hm)
  shutting := h.shutting
  closing := h.closing
  young := h.young
  bound := h.bound
  left hh hw := by
    refine ⟨(h.left hh hw).1, fun i hs => ?_⟩
    exact (h.left hh hw).2 i (ne_of_setStage_remote hr id hs)

/-! ### The lock and the writing half -/

theorem Guarded.setWrite (h : Guarded c) (hn : ∀ n s, c.stage n ≠ .send s) {write : WritePath}
    (hh : write.half = c.write.half) (ht : write.torn = c.write.torn) :
    Guarded { c with write := write } where
  fits i := by
    change write.half.Allows (c.stage i)
    rw [hh]
    exact h.fits i
  sender hs := absurd hs (hn _ _)
  torn hx := h.torn (ht.symm.trans hx)
  shaking := h.shaking
  shutting := by
    change c.reader = _ → write.half = _ ∨ write.half = _
    rw [hh]
    exact h.shutting
  closing := h.closing
  young := by
    change write.half = _ ∨ write.half = _ → _
    rw [hh]
    exact h.young
  bound := by
    change write.half = _ → _
    rw [hh]
    exact h.bound
  left := by
    change _ → write.half = _ → _
    rw [hh]
    exact h.left

theorem Guarded.acquire (h : Guarded c) (t : Task) :
    Guarded { c with write := c.write.acquire t } := by
  by_cases hn : ∃ n s, c.stage n = .send s
  · obtain ⟨n, s, hs⟩ := hn
    refine h.congr ?_
    have hh := (h.sender hs).1
    have ha : c.write.acquire t = { c.write with queue := c.write.queue ++ [t] } := by
      unfold WritePath.acquire
      split
      next hx => rw [hh] at hx; cases hx
      next => rfl
    rw [ha]
    rfl
  · exact h.setWrite (fun n s hs => hn ⟨n, s, hs⟩) (WritePath.half_acquire _ _)
      (WritePath.torn_acquire _ _)

/-- The writing half goes away while nobody sends or shakes hands. -/
theorem Guarded.lose (h : Guarded c) (hn : ∀ n s, c.stage n ≠ .send s)
    (hs : ∀ n e due, c.stage n ≠ .handshake e due) {write : WritePath}
    (hh : write.half = .leaving ∨ write.half = .gone) (ht : write.torn = false) :
    Guarded { c with write := write } where
  fits i := by
    have hf := h.fits i
    change write.half.Allows (c.stage i)
    generalize hi : c.stage i = s at hf
    cases s with
    | handshake e due => exact absurd hi (hs i e due)
    | send s => exact absurd hi (hn i s)
    | closeShutdown k => exact hh
    | _ => trivial
  sender hs := absurd hs (hn _ _)
  torn hx := by
    change write.torn = true at hx
    rw [ht] at hx
    cases hx
  shaking := h.shaking
  shutting _ := hh
  closing := h.closing
  young hx := by
    change write.half = _ ∨ write.half = _ at hx
    rcases hh with hh | hh <;> rw [hh] at hx <;> rcases hx with hx | hx <;> cases hx
  bound hx := by
    change write.half = _ at hx
    rcases hh with hh | hh <;> rw [hh] at hx <;> cases hx
  left _ hx := by
    change write.half = _ at hx
    rcases hh with hh | hh <;> rw [hh] at hx <;> cases hx

/-! ### Moves -/

/-- The only call that can send gives it up. -/
theorem Guarded.retire (h : Guarded c) (hh : c.holds (.call n) = true) (hr : s.Remote) :
    Guarded ({ c with write := { c.write with torn := false } }.setStage n s) ∧
      ∀ m s', ({ c with write := { c.write with torn := false } }.setStage n s).stage m ≠
        .send s' := by
  have hn : ∀ m s', (c.setStage n s).stage m ≠ .send s' := by
    intro m s' hs
    have hs' := ne_of_setStage_remote hr id hs
    cases h.eq_of_send hh hs'
    rw [stage_setStage_self (lt_of_stage_ne_dropped (by simp [hs']))] at hs
    rw [hs] at hr
    exact hr
  refine ⟨⟨fun i => ?_, fun hs => absurd hs (hn _ _), nofun, fun hs hm => ?_, h.shutting, h.closing,
    h.young, h.bound, fun hd hw => ⟨(h.left hd hw).1, fun i hs => ?_⟩⟩, hn⟩
  · change c.write.half.Allows ((c.setStage n s).stage i)
    rw [stage_setStage]
    split
    · exact WriteHalf.allows_of_remote hr
    · exact h.fits i
  · exact h.shaking (ne_of_setStage_remote hr id hs) (ne_of_setStage_remote hr id hm)
  · exact (h.left hd hw).2 i (ne_of_setStage_remote hr id hs)

theorem Guarded.yield (h : Guarded c) (hh : c.holds (.call n) = true) (hr : s.Remote) :
    Guarded (c.yield.setStage n s) := by
  obtain ⟨hg, hn⟩ := h.retire hh hr
  by_cases ht : c.write.torn = true
  · obtain ⟨m, s', hs⟩ := h.torn ht
    have hw := h.half_of_send hs
    refine hg.lose hn (fun i e due hi => ?_) (.inr ?_) (WritePath.torn_leave _)
    · have hw' := h.half_of_handshake (ne_of_setStage_remote hr id hi)
      rw [hw] at hw'
      cases hw'
    · exact (WritePath.half_leave c.write).trans (if_pos ⟨ht, hw⟩)
  · refine hg.setWrite hn ?_ (WritePath.torn_leave _)
    exact (WritePath.half_leave c.write).trans (if_neg fun hx => ht hx.1)

/-- A call that is given up leaves its place in the line, or hands the lock on. -/
theorem Guarded.withdraw (h : Guarded c) (hr : s.Remote) (hs : ∀ s', c.stage n ≠ .send s') :
    Guarded (({ c with write := c.write.withdraw (.call n) }).setStage n s) := by
  refine Guarded.setStage ?_ hr hs
  by_cases hx : ∃ m s, c.stage m = .send s
  · obtain ⟨m, s', hm⟩ := hx
    have hne : Task.call n ≠ .call m := by
      rintro ⟨⟩
      exact hs s' hm
    refine h.congr ?_
    have hh := (h.sender hm).1
    have hw : c.write.withdraw (.call n) =
        { c.write with queue := c.write.queue.filter (· != .call n) } := by
      unfold WritePath.withdraw
      exact if_neg fun hx => hne (Option.some.inj (hx.symm.trans hh))
    rw [hw]
    rfl
  · exact h.setWrite (fun m s' hm => hx ⟨m, s', hm⟩) (WritePath.half_withdraw _ _)
      (WritePath.torn_withdraw _ _)

/-- Whoever has the lock and goes for the writing half hands the lock on. -/
theorem Guarded.not_send_of_closeLock (h : Guarded c) {k : AfterClose} (hs : c.InCloseLock k t)
    (hh : c.holds t = true) (m : Nat) (s : Sending) : c.stage m ≠ .send s := by
  intro hm
  have ht := h.eq_of_send hh hm
  subst ht
  have hs : c.stage m = .closeLock k := hs
  rw [hm] at hs
  cases hs

theorem Guarded.dropHalf (h : Guarded c) (hn : ∀ n s, c.stage n ≠ .send s) :
    Guarded { c with write := c.write.dropHalf } := by
  by_cases hw : c.write.half = .held
  · refine h.lose hn (fun n e due hs => ?_) (.inr ?_) ?_
    · have hf := h.half_of_handshake hs
      rw [hw] at hf
      cases hf
    · rw [WritePath.half_dropHalf, if_pos hw]
    · rw [WritePath.torn_dropHalf]
      exact h.not_torn hn
  · refine h.setWrite hn ?_ (WritePath.torn_dropHalf _)
    rw [WritePath.half_dropHalf, if_neg hw]

/-- Nobody sends after the client has been let go. -/
theorem Guarded.ne_send_of_left (h : Guarded c) (hh : c.held = false) (n : Nat) (s : Sending) :
    c.stage n ≠ .send s := by
  intro hs
  have hd := (h.sender hs).2.1
  rw [hh] at hd
  cases hd

theorem Guarded.setLife (h : Guarded c) {l : Life} (hl : l ≠ .connected) :
    Guarded { c with life := l } :=
  ⟨h.fits, h.sender, h.torn, h.shaking, h.shutting, fun _ => hl, h.young, h.bound,
    fun hh hw => ⟨hl, (h.left hh hw).2⟩⟩

theorem Guarded.setReader (h : Guarded c) {r : ReaderStage} (hs : r ≠ .closeShutdown)
    (hl : r = .closeLock → c.life ≠ .connected) : Guarded { c with reader := r } :=
  ⟨h.fits, h.sender, h.torn, h.shaking, fun hx => absurd hx hs,
    fun hx => hx.elim hl fun hx => absurd hx hs, h.young, h.bound, h.left⟩

/-! ### Moves -/

theorem Guarded.connect (h : Guarded c) {e : Handshake.Exchange} {due : Nat}
    (hu : c.write.half = .unused) :
    Guarded (({ c with write := { c.write with half := .unsplit } }).setStage n
      (.handshake e due)) := by
  have hn : ∀ m s, c.stage m ≠ .send s := h.ne_send_of_half (by rw [hu]; nofun)
  have hs : ∀ m e due, c.stage m ≠ .handshake e due := by
    intro m e due hm
    have hf := h.half_of_handshake hm
    rw [hu] at hf
    cases hf
  have hc : ∀ {i s₀}, (c.setStage n (.handshake e due)).stage i = s₀ →
      i = n ∧ s₀ = .handshake e due ∨ c.stage i = s₀ := stage_setStage_cases
  refine ⟨fun i => ?_, fun hi => ?_, fun ht => ?_, fun hi hj => ?_, fun hx => ?_, h.closing,
    fun _ => h.young (.inl hu), nofun, nofun⟩
  · have hf := h.fits i
    change WriteHalf.unsplit.Allows ((c.setStage n _).stage i)
    rw [stage_setStage]
    split
    · rfl
    next =>
      generalize hi : c.stage i = s at hf
      cases s with
      | handshake e due => rfl
      | send s => exact absurd hi (hn i s)
      | closeShutdown k =>
        rw [hu] at hf
        rcases hf with hf | hf <;> cases hf
      | _ => trivial
  · rcases hc hi with ⟨-, hx⟩ | hi
    · cases hx
    · exact absurd hi (hn _ _)
  · have ht' : c.write.torn = true := ht
    rw [h.not_torn hn] at ht'
    cases ht'
  · rcases hc hi with ⟨rfl, -⟩ | hi
    · rcases hc hj with ⟨rfl, -⟩ | hj
      · rfl
      · exact absurd hj (hs _ _ _)
    · exact absurd hi (hs _ _ _)
  · have hf := h.shutting hx
    rw [hu] at hf
    rcases hf with hf | hf <;> cases hf

/-- A call that is in the handshake is the only one, and nobody does anything else with the
stream. -/
theorem Guarded.alone (h : Guarded c) {e : Handshake.Exchange} {due : Nat}
    (hs : c.stage n = .handshake e due) {s : Stage} (hr : s.Remote) :
    (∀ i, ((c.setStage n s).stage i).Remote ∨ (c.setStage n s).stage i = .lock) ∧
      c.reader ≠ .closeShutdown := by
  have hw := h.half_of_handshake hs
  refine ⟨fun i => ?_, fun hx => ?_⟩
  · have hf := h.fits i
    rw [stage_setStage]
    split
    · exact .inl hr
    next hi =>
      generalize hi' : c.stage i = s at hf
      rw [hw] at hf
      cases s with
      | handshake e due =>
        have hin := h.shaking hi' hs
        subst hin
        exact absurd ⟨rfl, lt_of_stage_ne_dropped (by simp [hs])⟩ hi
      | send s => cases hf
      | closeShutdown k => rcases hf with hf | hf <;> cases hf
      | lock => exact .inr rfl
      | _ => exact .inl trivial
  · have hf := h.shutting hx
    rw [hw] at hf
    rcases hf with hf | hf <;> cases hf

theorem Guarded.establish (h : Guarded c) {e : Handshake.Exchange} {due : Nat}
    {session : Handshake.Session} (hs : c.stage n = .handshake e due) (hr : s.Remote) :
    Guarded ((c.accept session).setStage n s) := by
  obtain ⟨ha, -⟩ := h.alone hs hr
  have ha' : ∀ i, (((c.accept session).setStage n s).stage i).Remote ∨
      ((c.accept session).setStage n s).stage i = .lock := ha
  have hx : ∀ {i s₀}, ¬ s₀.Remote → s₀ ≠ .lock →
      ((c.accept session).setStage n s).stage i ≠ s₀ := by
    rintro i s₀ hr hl rfl
    exact (ha' i).elim hr hl
  have ht : c.write.torn = false := h.not_torn
    (h.ne_send_of_half (by rw [h.half_of_handshake hs]; nofun))
  refine ⟨fun i => ?_, fun hi => absurd hi (hx id nofun), fun hx => ?_,
    fun hi => absurd hi (hx id nofun), nofun, fun hx => hx.elim nofun nofun,
    fun hx => hx.elim nofun nofun, nofun, nofun⟩
  · rcases ha' i with hr | hl
    · exact WriteHalf.allows_of_remote hr
    · rw [hl]; trivial
  · have hx : c.write.torn = true := hx
    rw [ht] at hx
    cases hx

theorem Guarded.dropStream (h : Guarded c)
    (hn : ∀ i, (c.stage i).Remote ∨ c.stage i = .lock ∨ ∃ k, c.stage i = .closeShutdown k) :
    Guarded c.dropStream := by
  have hx : ∀ {i s₀}, ¬ s₀.Remote → s₀ ≠ .lock → (∀ k, s₀ ≠ .closeShutdown k) →
      c.stage i ≠ s₀ := by
    rintro i s₀ hr hl hk rfl
    rcases hn i with hx | hx | ⟨k, hx⟩
    · exact hr hx
    · exact hl hx
    · exact hk k hx
  refine ⟨fun i => ?_, fun hi => absurd hi (hx id nofun nofun), fun ht => ?_,
    fun hi => absurd hi (hx id nofun nofun), nofun, fun hx => hx.elim nofun nofun,
    fun hx => hx.elim nofun nofun, nofun, nofun⟩
  · change WriteHalf.gone.Allows (c.stage i)
    rcases hn i with hr | hl | ⟨k, hl⟩
    · exact WriteHalf.allows_of_remote hr
    · rw [hl]; trivial
    · rw [hl]; exact .inr rfl
  · have ht : c.write.torn = true := ht
    rw [h.not_torn fun i s => hx id nofun nofun] at ht
    cases ht

theorem Guarded.endHandshake (h : Guarded c) {e : Handshake.Exchange} {due : Nat}
    (hs : c.stage n = .handshake e due) (hr : s.Remote) :
    Guarded (c.dropStream.setStage n s) := by
  obtain ⟨ha, -⟩ := h.alone hs hr
  have hg : Guarded (c.setStage n s) := h.setStage hr (by rw [hs]; nofun)
  exact hg.dropStream fun i => (ha i).imp_right .inl

theorem Guarded.lineUp (h : Guarded c) (hs : c.stage n = .fresh) (hl : c.life = .connected) :
    Guarded (({ c with write := c.write.acquire (.call n) }).setStage n .lock) := by
  have hg := h.acquire (.call n)
  have hc : ∀ {i s₀}, s₀ ≠ .lock → (c.setStage n .lock).stage i = s₀ → c.stage i = s₀ := by
    intro i s₀ hs hi
    exact (stage_setStage_cases hi).resolve_left fun hx => hs hx.2
  have hsend : ∀ {i s'}, (c.setStage n .lock).stage i = .send s' → c.stage i = .send s' :=
    hc nofun
  have hshake : ∀ {i e due}, (c.setStage n .lock).stage i = .handshake e due →
      c.stage i = .handshake e due := hc nofun
  refine ⟨fun i => ?_, fun hi => hg.sender (hsend hi), fun ht => ?_,
    fun hi hj => hg.shaking (hshake hi) (hshake hj), hg.shutting, hg.closing, hg.young, hg.bound,
    fun hh hw => absurd hl (hg.left hh hw).1⟩
  · have hf := hg.fits i
    change (c.write.acquire (.call n)).half.Allows ((c.setStage n .lock).stage i)
    rw [stage_setStage]
    split
    · trivial
    · exact hf
  · obtain ⟨i, s', hi⟩ := hg.torn ht
    have hi : c.stage i = .send s' := hi
    have hne : i ≠ n := by
      rintro rfl
      have hx := hs.symm.trans hi
      cases hx
    refine ⟨i, s', ?_⟩
    change (c.setStage n .lock).stage i = .send s'
    rw [stage_setStage, if_neg fun hx => hne hx.1]
    exact hi

theorem Guarded.sending (h : Guarded c) {s : Sending} (hh : c.write.holder = some (.call n))
    (hd : c.held = true) (hw : c.write.half = .held) (hn : n < c.calls.length) :
    Guarded (c.sendRest n s) := by
  have hc : ∀ {i s₀}, (c.setStage n (.send s)).stage i = s₀ →
      i = n ∧ s₀ = .send s ∨ c.stage i = s₀ := stage_setStage_cases
  have hs : ∀ {i s₀}, (c.setStage n (.send s)).stage i = .send s₀ → i = n := by
    intro i s₀ hi
    rcases hc hi with ⟨hi, -⟩ | hi
    · exact hi
    · have hx := (h.sender hi).1
      rw [hh] at hx
      cases hx
      rfl
  have hself : (c.setStage n (.send s)).stage n = .send s := stage_setStage_self hn _
  refine ⟨fun i => ?_, fun {i s₀} hi => ?_, fun _ => ⟨n, s, hself⟩, fun hi hj => ?_, h.shutting,
    h.closing, h.young, h.bound, fun hx => ?_⟩
  · change c.write.half.Allows ((c.setStage n _).stage i)
    rw [stage_setStage]
    split
    · exact hw
    · exact h.fits i
  · have hi : (c.setStage n (.send s)).stage i = .send s₀ := hi
    cases hs hi
    rw [hself] at hi
    cases hi
    exact ⟨hh, hd, rfl⟩
  · have hi := (hc hi).resolve_left nofun
    have hj := (hc hj).resolve_left nofun
    exact h.shaking hi hj
  · have hx : c.held = false := hx
    rw [hd] at hx
    cases hx

theorem outline_setStage (h : c.outline = c'.outline) (n : Nat) (s : Stage) :
    (c.setStage n s).outline = (c'.setStage n s).outline :=
  congrArg (fun d : Client => d.setStage n s) h

theorem outline_forget (c : Client) (w : Waiter) : (c.forget w).outline = c.outline := rfl

theorem outline_forgetAny (c : Client) (waiter : Option Waiter) :
    (c.forgetAny waiter).outline = c.outline := by
  cases waiter <;> rfl

theorem outline_routed (c : Client) (f : Frame) : (c.routed f).outline = c.outline := by
  unfold routed
  split
  · split <;> rfl
  · unfold dispatch
    split <;> rfl
  · rfl

theorem outline_conclude (c : Client) (n : Nat) (w : Waiter) (r : Except Failure Reply) :
    ∃ r', (c.conclude n w r).outline = (c.setStage n (.done r')).outline := by
  cases r with
  | error e => exact ⟨_, outline_setStage (outline_forget c w) n _⟩
  | ok reply =>
    refine ⟨replyOutcome (c.job n) w.id reply, outline_setStage ?_ n _⟩
    have ha : ((c.forget w).record (.answered n reply)).outline = c.outline := rfl
    split
    · exact Eq.trans rfl ha
    · exact ha

theorem remote_endsIn {k : AfterClose} (h : k.EndsIn s) : s.Remote := by
  cases k with
  | finish r =>
    have hs : s = .done r := h
    rw [hs]
    trivial
  | join => rcases h with rfl | rfl <;> trivial

theorem outline_core (h : c.core = c'.core) : c.outline = c'.outline := by
  have ho := congrArg outline h
  exact ho

theorem life_of_outline (h : c.outline = c'.outline) : c.life = c'.life := by
  have hl := congrArg life h
  exact hl

theorem calls_of_outline (h : c.outline = c'.outline) : c.calls = c'.calls := by
  have hc := congrArg calls h
  exact hc

theorem Guarded.shake (h : Guarded c) {e e' : Handshake.Exchange} {due : Nat}
    (hs : c.stage n = .handshake e due) : Guarded (c.setStage n (.handshake e' due)) := by
  have hw := h.half_of_handshake hs
  have hsend : ∀ m s, c.stage m ≠ .send s := h.ne_send_of_half (by rw [hw]; nofun)
  have hshake : ∀ {i e due'}, (c.setStage n (.handshake e' due)).stage i = .handshake e due' →
      i = n := by
    intro i e due' hi
    rcases stage_setStage_cases hi with ⟨hi, -⟩ | hi
    · exact hi
    · exact h.shaking hi hs
  have hc : ∀ {i s₀}, (∀ e due, s₀ ≠ .handshake e due) →
      (c.setStage n (.handshake e' due)).stage i = s₀ → c.stage i = s₀ := by
    intro i s₀ hs hi
    exact (stage_setStage_cases hi).resolve_left fun hx => hs _ _ hx.2
  have hs' : ∀ {i s}, (c.setStage n (.handshake e' due)).stage i = .send s →
      c.stage i = .send s := hc nofun
  refine ⟨fun i => ?_, fun {i s'} hi => absurd (hs' hi) (hsend i s'), fun ht => ?_,
    fun hi hj => (hshake hi).trans (hshake hj).symm, h.shutting, h.closing, h.young, h.bound,
    fun hh hx => ?_⟩
  · change c.write.half.Allows _
    rw [stage_setStage]
    split
    · exact hw
    · exact h.fits i
  · have ht : c.write.torn = true := ht
    rw [h.not_torn hsend] at ht
    cases ht
  · have hx : c.write.half = .held := hx
    rw [hw] at hx
    cases hx

theorem Guarded.breakOff (h : Guarded c) : Guarded c.breakOff := by
  have hl : Guarded { c with life := .closing } := h.setLife nofun
  exact hl.congr rfl

theorem Guarded.ne_handshake (h : Guarded c) (hw : c.write.half ≠ .unsplit) (i : Nat)
    (e : Handshake.Exchange) (due : Nat) : c.stage i ≠ .handshake e due := fun hs =>
  hw (h.half_of_handshake hs)

theorem Guarded.shut (h : Guarded c) (hw : c.write.half = .leaving ∨ c.write.half = .gone) :
    Guarded { c with write := { c.write with half := .gone } } := by
  have hn := h.ne_send_of_half fun hx => by rcases hw with hw | hw <;> rw [hw] at hx <;> cases hx
  refine h.lose hn (h.ne_handshake fun hx => ?_) (.inr rfl) (h.not_torn hn)
  rcases hw with hw | hw <;> rw [hw] at hx <;> cases hx

theorem Guarded.half_of_inShutdown (h : Guarded c) {k : AfterClose} (hs : c.InShutdown k t) :
    c.write.half = .leaving ∨ c.write.half = .gone := by
  cases t with
  | reader => exact h.shutting hs
  | call n =>
    have hf := h.fits n
    have hs : c.stage n = .closeShutdown k := hs
    rwa [hs] at hf

/-- Whoever closes the connection takes the writing half out of the write path. -/
theorem Guarded.takeHalf (h : Guarded c) {k : AfterClose} (hs : c.InCloseLock k t)
    (hh : c.holds t = true) (hw : c.write.half = .held) :
    Guarded (({ c with
      write := ({ c.write with half := .leaving } : WritePath).release }).toShutdown k t) := by
  have hn := h.not_send_of_closeLock hs hh
  have hl : ({ c.write with half := .leaving } : WritePath).release.half = .leaving :=
    WritePath.half_release _
  have hg : Guarded { c with write := ({ c.write with half := .leaving } : WritePath).release } :=
    h.lose hn (h.ne_handshake (by rw [hw]; nofun)) (.inl hl)
      ((WritePath.torn_release _).trans (h.not_torn hn))
  cases t with
  | reader =>
    exact ⟨hg.fits, hg.sender, hg.torn, hg.shaking, fun _ => .inl hl, fun _ => h.closing (.inl hs),
      hg.young, hg.bound, hg.left⟩
  | call n =>
    have hs : c.stage n = .closeLock k := hs
    have hc : ∀ {i s₀}, (∀ k, s₀ ≠ .closeShutdown k) →
        (c.setStage n (.closeShutdown k)).stage i = s₀ → c.stage i = s₀ := by
      intro i s₀ hx hi
      exact (stage_setStage_cases hi).resolve_left fun hy => hx _ hy.2
    have hshake : ∀ {i e due}, (c.setStage n (.closeShutdown k)).stage i = .handshake e due →
        c.stage i = .handshake e due := hc nofun
    have hsend : ∀ {i s}, (c.setStage n (.closeShutdown k)).stage i = .send s →
        c.stage i = .send s := hc nofun
    refine ⟨fun i => ?_, fun {i s'} hi => absurd (hsend hi) (hn i s'), fun hx => ?_,
      fun hi hj => h.shaking (hshake hi) (hshake hj), hg.shutting, hg.closing, hg.young, hg.bound,
      fun _ hx => ?_⟩
    · have hf := hg.fits i
      change WriteHalf.Allows _ ((c.setStage n (.closeShutdown k)).stage i)
      rw [stage_setStage]
      split
      · exact .inl hl
      · exact hf
    · obtain ⟨i, s', hi⟩ := hg.torn hx
      exact absurd hi (hn i s')
    · have hx : ({ c.write with half := .leaving } : WritePath).release.half = .held := hx
      rw [hl] at hx
      cases hx

theorem holds_iff (c : Client) (t : Task) : c.holds t = true ↔ c.write.holder = some t := by
  unfold holds
  exact beq_iff_eq

theorem holds_forgetAny (c : Client) (waiter : Option Waiter) (t : Task) :
    (c.forgetAny waiter).holds t = c.holds t := by
  cases waiter <;> rfl

/-- The client is let go: nobody sends, and nobody will. -/
theorem Guarded.letGo (h : Guarded c) (hs : ∀ n, (c.stage n).isOpen = false) :
    Guarded { c with
      held := false
      write := if c.reader = .closeLock ∨ c.reader = .closeShutdown then c.write
        else c.write.dropHalf } := by
  have hx : ∀ {n s₀}, s₀.isOpen = true → c.stage n ≠ s₀ := by
    rintro n s₀ ho rfl
    rw [hs] at ho
    cases ho
  have hn : ∀ n s, c.stage n ≠ .send s := fun n s => hx rfl
  split
  next hr =>
    exact ⟨h.fits, fun hi => absurd hi (hn _ _), h.torn, h.shaking, h.shutting, h.closing, h.young,
      h.bound, fun _ _ => ⟨h.closing hr, fun n => hx rfl⟩⟩
  next =>
    have hg := h.dropHalf hn
    refine ⟨hg.fits, fun hi => absurd hi (hn _ _), hg.torn, hg.shaking, hg.shutting, hg.closing,
      hg.young, hg.bound, fun _ hw => ?_⟩
    have hw : c.write.dropHalf.half = .held := hw
    rw [WritePath.half_dropHalf] at hw
    split at hw
    · cases hw
    next hne => exact absurd hw hne

/-- **The invariant is preserved by every move.** -/
theorem Guarded.move (hm : c.Move c') (h : Guarded c) : Guarded c' := by
  have remote : ∀ {n s₀ s}, c.stage n = s₀ → (∀ s', s₀ ≠ .send s') → s.Remote →
      Guarded (c.setStage n s) := fun hs hn hr => h.setStage hr (hs ▸ hn)
  have peer : ∀ peer, Guarded { c with peer := peer } := fun peer => h.congr rfl
  cases hm with
  | quiet hq => exact h.congr (outline_core hq)
  | tick millis => exact h.congr rfl
  | connect hs hj hu hb => exact h.connect hu
  | shake hs hr => exact (peer _).shake hs
  | establish hs hr => exact (peer _).establish hs trivial
  | miss hs hr hp => exact (peer _).endHandshake hs trivial
  | abandon hs => exact h.endHandshake hs trivial
  | @refuse n f hs hj hu hb =>
    refine (remote (s := .done (.error f)) hs nofun trivial).dropStream fun i => ?_
    have hf := (remote (s := .done (.error f)) hs nofun trivial).fits i
    change c.write.half.Allows _ at hf
    rw [hu] at hf
    generalize (c.setStage n (.done (.error f))).stage i = s at hf
    cases s with
    | handshake e due => cases hf
    | lock => exact .inr (.inl rfl)
    | send s => cases hf
    | closeShutdown k => exact .inr (.inr ⟨k, rfl⟩)
    | _ => exact .inl trivial
  | turnDown hs hj hf => exact remote hs nofun trivial
  | tooLate hs hj hl => exact remote hs nofun trivial
  | leaveItAt hs hj ho => exact remote hs nofun trivial
  | waitForReader hs hj hl => exact remote hs nofun trivial
  | joined hs hr => exact remote hs nofun trivial
  | unroute hs hj ha => exact h.congr rfl
  | lineUp hs hl hj => exact h.lineUp hs hl
  | turnAway hs hh hj hr =>
    have hu : Guarded c.useId := h.congr rfl
    exact hu.yield hh trivial
  | pass hs hh hj => exact h.yield hh trivial
  | @begin c₁ n m waiter bytes he hf hw =>
    have hg : Guarded c₁ := h.congr (by cases he <;> rfl)
    have hh : c.holds (.call n) = true := by cases he <;> assumption
    have hn : ∀ i s, c.stage i ≠ .send s := by
      intro i s hi
      cases h.eq_of_send hh hi
      rw [he.stage_eq_lock] at hi
      cases hi
    have hheld : c.held = true := by
      cases hd : c.held with
      | true => rfl
      | false => exact absurd he.stage_eq_lock ((h.left hd hw).2 n)
    have hx := hg.sending (n := n) (s := ⟨bytes, bytes.length, waiter, c.requestDue⟩)
      ((holds_iff _ _).1 (by cases he <;> exact hh)) (by cases he <;> exact hheld)
      (he.half_eq.trans hw) (he.calls_eq ▸ (Sends.atOnce he).lt_length)
    refine hx.congr ?_
    have ht : c₁.write.torn = false := by
      have ht := h.not_torn hn
      cases he <;> exact ht
    have hz : (!bytes.isEmpty && decide (bytes.length < bytes.length)) = c₁.write.torn := by
      simp [ht]
    unfold sendRest
    dsimp only
    rw [hz]
  | @write n s out rest hs hb =>
    obtain ⟨hh, hd, -⟩ := h.sender hs
    have hn : n < c.calls.length := lt_of_stage_ne_dropped (by simp [hs])
    exact (peer _).sending hh hd (h.half_of_send hs) hn
  | @sent n s hs hr =>
    have hg : Guarded (c.record (.sent n c.now)) := h.congr rfl
    refine hg.yield ((holds_iff _ _).2 (h.sender hs).1) ?_
    cases s.waiter <;> trivial
  | @fail c₁ _ n waiter e hs he hf =>
    have hg : Guarded (c₁.record (.unsent n e)) := by
      cases hs with
      | atOnce he => exact h.congr (by cases he <;> rfl)
      | later hs => exact h.congr rfl
    have hh : (c₁.record (.unsent n e)).holds (.call n) = true := by
      cases hs with
      | atOnce he => cases he <;> assumption
      | later hs => exact (holds_iff _ _).2 (h.sender hs).1
    have hx : ∀ {s : Stage}, s.Remote →
        Guarded (((c₁.record (.unsent n e)).yield.forgetAny waiter).setStage n s) := fun hr =>
      (hg.yield hh hr).congr (outline_setStage (outline_forgetAny _ _).symm n _)
    cases hf with
    | ends _ => exact hx trivial
    | closes _ => exact (hx (s := .closeLock _) trivial).breakOff
  | @conclude n due w r hs hr =>
    obtain ⟨r', hq⟩ := outline_conclude c n w r
    exact (remote (s := .done r') hs nofun trivial).congr hq.symm
  | dropIdle hs => rcases hs with hs | hs <;> exact remote hs nofun trivial
  | dropLine hs =>
    refine h.withdraw trivial fun s' hx => ?_
    rcases hs with hs | ⟨k, hs⟩ <;> rw [hs] at hx <;> cases hx
  | @dropSend n s hs =>
    have hg : Guarded (c.forgetAny s.waiter) := h.congr (outline_forgetAny c s.waiter).symm
    refine hg.yield ?_ trivial
    rw [holds_forgetAny]
    exact (holds_iff _ _).2 (h.sender hs).1
  | dropWait hs =>
    exact (remote (s := .dropped) hs nofun trivial).congr
      (outline_setStage (outline_forget c _).symm _ _)
  | @dropShutdown n k hs =>
    have hg := h.shut (h.half_of_inShutdown (t := .call n) hs)
    exact hg.setStage trivial fun s' hx => nomatch hs.symm.trans hx
  | @close t k hm hl =>
    cases t with
    | reader =>
      have hg := h.breakOff.setReader (r := .closeLock) nofun fun _ => nofun
      exact hg.congr rfl
    | call n => exact (remote (s := .closeLock k) hm.1 nofun trivial).breakOff
  | lineUpToClose hs hl => exact h.acquire _
  | takeHalf hs hh hw => exact h.takeHalf hs hh hw
  | findGone hs hh hw =>
    have hg := h.setWrite (h.not_send_of_closeLock hs hh) (WritePath.half_release c.write)
      (WritePath.torn_release c.write)
    exact hg.setLife nofun
  | shut hs => exact (h.shut (h.half_of_inShutdown hs)).setLife nofun
  | rest hs hl hk =>
    rcases hs with hs | hs <;> exact remote hs nofun (remote_endsIn hk)
  | endReader hl =>
    have hr : Guarded { c with reader := .ended } := h.setReader nofun nofun
    cases hd : c.held with
    | true => exact hr.congr (by rw [hd]; rfl)
    | false =>
      have hg := hr.dropHalf (h.ne_send_of_left hd)
      exact hg.congr (by rw [hd]; rfl)
  | keepReading hr => exact h.setReader nofun nofun
  | route hr ha f =>
    have hg : Guarded (c.record (.routed f)) := h.congr rfl
    refine hg.congr ?_
    rw [outline_core (core_route c f), outline_routed]
  | letGo hs hh => exact h.letGo hs

theorem Guarded.addCall (h : Guarded c) (job : Job) : Guarded (c.addCall job) := by
  have hc := stage_addCall c job
  have hx : ∀ {i s₀}, s₀ ≠ .fresh → (c.addCall job).stage i = s₀ → c.stage i = s₀ := by
    rintro i s₀ hs rfl
    exact ((hc i).resolve_right hs).symm
  have hk : ∀ {i s₀}, s₀ ≠ .dropped → c.stage i = s₀ → (c.addCall job).stage i = s₀ := by
    rintro i s₀ hs rfl
    unfold stage Client.addCall
    rw [List.getElem?_append_left (lt_of_stage_ne_dropped hs)]
  have hshake : ∀ {i e due}, (c.addCall job).stage i = .handshake e due →
      c.stage i = .handshake e due := hx nofun
  have hsend : ∀ {i s}, (c.addCall job).stage i = .send s → c.stage i = .send s := hx nofun
  refine ⟨fun i => ?_, fun hi => h.sender (hsend hi), fun ht => ?_,
    fun hi hj => h.shaking (hshake hi) (hshake hj), h.shutting, h.closing, h.young, h.bound,
    fun hh hw => ⟨(h.left hh hw).1, fun i hi => (h.left hh hw).2 i (hx nofun hi)⟩⟩
  · change c.write.half.Allows _
    rcases hc i with hi | hi <;> rw [hi]
    · exact h.fits i
    · trivial
  · obtain ⟨i, s, hs⟩ := h.torn ht
    exact ⟨i, s, hk nofun hs⟩

theorem Guarded.initial (config : Config) : Guarded (Client.initial config) :=
  ⟨fun _ => trivial, nofun, nofun, nofun, nofun, nofun, fun _ => rfl, nofun, nofun⟩

theorem Possible.guarded {config : Config} (h : Possible config c) : Guarded c :=
  h.induct Guarded.move (fun job h => h.addCall job) (Guarded.initial config)

end Client

end DocWire
