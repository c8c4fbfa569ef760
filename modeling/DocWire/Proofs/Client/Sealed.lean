import Mathlib.Tactic.ByContra
import DocWire.Proofs.Client.Correlation
import DocWire.Proofs.Client.Guarded

/-! # Once closing has begun

Nobody goes for the write path before there is a connection, and nobody shuts it down before closing
has begun: this is what the life of a connection allows (`Life.Allows`). From the moment when closing
begins the registry is closed and empty (`Sealed`), so that no request is registered and no reply
finds a waiter. -/

namespace DocWire

open DocWire.Correlator (Waiter)

namespace Correlator

variable {κ : Type}

@[simp] theorem closed_dropSlot (c : Correlator κ) (slot : Slot κ) :
    (c.dropSlot slot).closed = c.closed := by
  unfold dropSlot
  split <;> rfl

@[simp] theorem closed_fulfill (c : Correlator κ) (slot : Slot κ) (reply : Reply) :
    (c.fulfill slot reply).2.closed = c.closed := by
  unfold fulfill
  split <;> rfl

theorem closed_dropSlots (c : Correlator κ) (entries : List (String × Slot κ)) :
    (entries.foldl (fun c entry => c.dropSlot entry.2) c).closed = c.closed := by
  induction entries generalizing c with
  | nil => rfl
  | cons e entries ih => rw [List.foldl_cons, ih, closed_dropSlot]

@[simp] theorem closed_failAll (c : Correlator κ) : c.failAll.2.closed = true := by
  unfold failAll
  rw [closed_dropSlots]

@[simp] theorem closed_leave (c : Correlator κ) (w : Waiter) : (c.leave w).closed = c.closed := by
  unfold leave take
  cases c.slots.lookup w.id with
  | none => rfl
  | some slot => exact closed_dropSlot _ _

theorem slots_remove_eq_nil {c : Correlator κ} (h : c.slots = []) (id : String) :
    (c.remove id).slots = [] := by
  unfold remove
  rw [h]
  rfl

theorem slots_leave_eq_nil {c : Correlator κ} (h : c.slots = []) (w : Waiter) :
    (c.leave w).slots = [] := by
  unfold leave take
  rw [h]
  exact slots_remove_eq_nil h w.id

end Correlator

/-- Whether closing has begun. -/
def Life.IsPast (l : Life) : Prop := l = .closing ∨ l = .closed

/-- Whether a call can be at a stage during some part of the life of a connection. -/
def Life.Allows (l : Life) : Stage → Prop
  | .lock => l ≠ .unconnected
  | .closeLock _ | .closeShutdown _ => l.IsPast
  | _ => True

theorem Life.IsPast.ne_connected {l : Life} (h : l.IsPast) : l ≠ .connected := by
  rcases h with rfl | rfl <;> nofun

theorem Life.IsPast.ne_unconnected {l : Life} (h : l.IsPast) : l ≠ .unconnected := by
  rcases h with rfl | rfl <;> nofun

theorem Life.isPast_iff {l : Life} : l.IsPast ↔ l ≠ .unconnected ∧ l ≠ .connected := by
  cases l <;> simp [Life.IsPast]

theorem Life.allows_endsIn {l : Life} {k : AfterClose} {s : Stage} (h : k.EndsIn s) :
    l.Allows s := by
  cases k with
  | finish r =>
    have hs : s = .done r := h
    rw [hs]
    trivial
  | join => rcases h with rfl | rfl <;> trivial

theorem Life.allows_of_isPast {l : Life} (h : l.IsPast) (s : Stage) : l.Allows s := by
  cases s with
  | lock => exact h.ne_unconnected
  | closeLock k => exact h
  | closeShutdown k => exact h
  | _ => trivial

namespace Client

/-- **The invariant of closing.** -/
structure Sealed (c : Client) : Prop where
  fits : ∀ n, c.life.Allows (c.stage n)
  reader : c.reader = .closeLock ∨ c.reader = .closeShutdown → c.life.IsPast
  begun : c.life ≠ .unconnected → c.session ≠ none ∧ c.reader ≠ .absent
  closed : c.life.IsPast → c.correlator.closed = true
  empty : c.life ≠ .connected → c.correlator.slots = []

variable {c c' c₁ d : Client} {n : Nat} {t : Task} {k : AfterClose} {s : Stage} {w : Waiter}

namespace Sealed

theorem of_eq (h : Sealed c) (hl : c'.life = c.life) (hs : c'.session = c.session)
    (hc : c'.calls = c.calls) (hr : c'.reader = c.reader)
    (he : c.correlator.slots = [] → c'.correlator.slots = [])
    (hk : c'.correlator.closed = c.correlator.closed) : Sealed c' where
  fits n := by
    rw [hl, stage_congr hc]
    exact h.fits n
  reader hx := by
    rw [hl]
    exact h.reader (hr ▸ hx)
  begun hx := by
    rw [hs, hr]
    exact h.begun (hl ▸ hx)
  closed hx := by
    rw [hk]
    exact h.closed (hl ▸ hx)
  empty hx := he (h.empty (hl ▸ hx))

theorem congr (h : Sealed c) (hq : c.core = c'.core) : Sealed c' := by
  have hs := congrArg Client.session hq
  have hk := congrArg Client.correlator hq
  have hk : c.correlator = c'.correlator := hk
  exact h.of_eq (life_eq hq).symm hs.symm (calls_eq hq).symm (reader_eq hq).symm
    (fun hx => hk ▸ hx) (congrArg _ hk.symm)

theorem setStage (h : Sealed c) (hs : c.life.Allows s) : Sealed (c.setStage n s) where
  fits i := by
    rw [stage_setStage]
    split
    · exact hs
    · exact h.fits i
  reader := h.reader
  begun := h.begun
  closed := h.closed
  empty := h.empty

theorem setReader (h : Sealed c) {r : ReaderStage} (hr : r ≠ .absent)
    (hp : r = .closeLock ∨ r = .closeShutdown → c.life.IsPast) :
    Sealed { c with reader := r } where
  fits := h.fits
  reader := hp
  begun hx := ⟨(h.begun hx).1, hr⟩
  closed := h.closed
  empty := h.empty

theorem forget (h : Sealed c) (w : Waiter) : Sealed (c.forget w) :=
  h.of_eq rfl rfl rfl rfl (fun hx => Correlator.slots_leave_eq_nil hx w)
    (Correlator.closed_leave _ w)

theorem forgetAny (h : Sealed c) (waiter : Option Waiter) : Sealed (c.forgetAny waiter) := by
  cases waiter with
  | none => exact h
  | some w => exact h.forget w

/-- Only while the connection is open a request is registered. -/
theorem connected_of_register (h : Sealed c) (hs : c.stage n = .lock) {id : String}
    {sub : Option Target} {w : Waiter} {correlator : Correlator Target}
    (hr : c.correlator.register id sub = .ok (w, correlator)) : c.life = .connected := by
  have hu := h.fits n
  rw [hs] at hu
  have hk := (Correlator.register_ok hr).1
  by_contra hl
  rw [h.closed (Life.isPast_iff.2 ⟨hu, hl⟩)] at hk
  cases hk

theorem enters (h : Sealed c) {m : ClientMessage} {waiter : Option Waiter}
    (he : c.Enters n m waiter c₁) : Sealed c₁ := by
  cases he with
  | request hs hh hj hr =>
    have hl := h.connected_of_register hs hr
    exact ⟨h.fits, h.reader, h.begun, fun hx => absurd hl hx.ne_connected,
      fun hx => absurd hl hx⟩
  | farewell hs hh hj => exact h.of_eq rfl rfl rfl rfl (fun hx => hx) rfl

theorem sends (h : Sealed c) {waiter : Option Waiter} (hs : c.Sends n waiter c₁) : Sealed c₁ := by
  cases hs with
  | atOnce he => exact h.enters he
  | later hs => exact h

/-- Closing begins, for a task that goes for the write path. -/
theorem breakOff (h : Sealed c) (hl : c.life = .connected) (k : AfterClose) (t : Task) :
    Sealed (c.toCloseLock k t).breakOff := by
  have hu : c.life ≠ .unconnected := by simp [hl]
  have hp : Life.IsPast .closing := .inl rfl
  have hb : Sealed c.breakOff :=
    ⟨fun n => Life.allows_of_isPast hp _, fun _ => hp, fun _ => h.begun hu,
      fun _ => Correlator.closed_failAll _, fun _ => Correlator.slots_failAll _⟩
  cases t with
  | reader => exact hb.setReader nofun fun _ => hp
  | call n => exact hb.setStage hp

theorem setClosed (h : Sealed c) (hl : c.life.IsPast) : Sealed { c with life := .closed } where
  fits _ := Life.allows_of_isPast (.inr rfl) _
  reader _ := .inr rfl
  begun _ := h.begun hl.ne_unconnected
  closed _ := h.closed hl
  empty _ := h.empty hl.ne_connected

theorem isPast_of_inCloseLock (h : Sealed c) (hs : c.InCloseLock k t) : c.life.IsPast := by
  cases t with
  | reader => exact h.reader (.inl hs)
  | call n =>
    have hf := h.fits n
    have hs : c.stage n = .closeLock k := hs
    rwa [hs] at hf

theorem isPast_of_inShutdown (h : Sealed c) (hs : c.InShutdown k t) : c.life.IsPast := by
  cases t with
  | reader => exact h.reader (.inr hs)
  | call n =>
    have hf := h.fits n
    have hs : c.stage n = .closeShutdown k := hs
    rwa [hs] at hf

theorem toShutdown (h : Sealed c) (hl : c.life.IsPast) (k : AfterClose) (t : Task) :
    Sealed (c.toShutdown k t) := by
  cases t with
  | reader => exact h.setReader nofun fun _ => hl
  | call n => exact h.setStage hl

theorem dropStream (h : Sealed c) : Sealed c.dropStream :=
  (h.setReader (r := .ended) nofun nofun).of_eq rfl rfl rfl rfl (fun hx => hx) rfl

theorem unconnected_of_handshake (h : Sealed c) (hg : Guarded c) {e : Handshake.Exchange}
    {due : Nat} (hs : c.stage n = .handshake e due) : c.life = .unconnected := by
  by_contra hl
  exact (h.begun hl).1 (hg.young (.inr (hg.half_of_handshake hs)))

theorem accept (h : Sealed c) (hu : c.life = .unconnected) (session : Handshake.Session) :
    Sealed (c.accept session) := by
  have hn : ¬ c.life.IsPast := fun hx => hx.ne_unconnected hu
  refine ⟨fun i => ?_, nofun, fun _ => ⟨nofun, nofun⟩, fun hx => absurd rfl hx.ne_connected,
    fun hx => absurd rfl hx⟩
  have hf := h.fits i
  change Life.Allows .connected (c.stage i)
  revert hf
  cases c.stage i with
  | lock => exact fun _ => nofun
  | closeLock k => exact fun hx => absurd hx hn
  | closeShutdown k => exact fun hx => absurd hx hn
  | _ => exact fun _ => trivial

theorem conclude (h : Sealed c) (n : Nat) (w : Waiter) (r : Except Failure Reply) :
    Sealed (c.conclude n w r) := by
  cases r with
  | error e => exact (h.forget w).setStage trivial
  | ok reply =>
    have ha : Sealed ((c.forget w).record (.answered n reply)) :=
      (h.forget w).of_eq rfl rfl rfl rfl (fun hx => hx) rfl
    unfold Client.conclude
    dsimp only
    split
    · have hr : Sealed (((c.forget w).record (.answered n reply)).reject w.id) :=
        ha.of_eq rfl rfl rfl rfl (fun hx => hx) rfl
      exact hr.setStage trivial
    · exact ha.setStage trivial

theorem routed (h : Sealed c) (f : Frame) : Sealed (c.routed f) := by
  unfold Client.routed
  split
  · split
    · refine h.of_eq rfl rfl rfl rfl (fun hx => ?_) (Correlator.closed_fulfill _ _ _)
      exact (Correlator.slots_fulfill _ _ _).trans (Correlator.slots_remove_eq_nil hx _)
    · exact h
  · unfold dispatch
    split
    · exact h.of_eq rfl rfl rfl rfl (fun hx => hx) rfl
    · exact h
  · exact h

/-- **The invariant is preserved by every move.** -/
theorem move (hm : c.Move c') (hg : Guarded c) (h : Sealed c) : Sealed c' := by
  have same : ∀ {d : Client}, d.life = c.life → d.session = c.session → d.calls = c.calls →
      d.reader = c.reader → d.correlator = c.correlator → Sealed d := fun hl hs hc hr hk =>
    h.of_eq hl hs hc hr (fun hx => hk ▸ hx) (congrArg _ hk)
  cases hm with
  | quiet hq => exact h.congr hq
  | tick | unroute | lineUpToClose => exact same rfl rfl rfl rfl rfl
  | connect | shake | turnDown | tooLate | leaveItAt | waitForReader | joined | turnAway | pass
  | write | dropIdle | dropLine | dropShutdown =>
    exact Sealed.setStage (same rfl rfl rfl rfl rfl) trivial
  | @establish n due e session source peer hs hr =>
    have hp : Sealed { c with peer := peer } := same rfl rfl rfl rfl rfl
    exact (hp.accept (h.unconnected_of_handshake hg hs) session).setStage trivial
  | miss | abandon | refuse =>
    exact Sealed.setStage (Sealed.dropStream (same rfl rfl rfl rfl rfl)) trivial
  | lineUp hs hl hj =>
    refine Sealed.setStage (same rfl rfl rfl rfl rfl) ?_
    change c.life ≠ .unconnected
    simp [hl]
  | begin he hf hw => exact (h.enters he).setStage trivial
  | @sent n s hs hr =>
    refine Sealed.setStage (same rfl rfl rfl rfl rfl) ?_
    cases s.waiter <;> trivial
  | @fail c₁ c' n waiter e hs he hf =>
    have hr : Sealed (c₁.record (.unsent n e)).yield :=
      (h.sends hs).of_eq rfl rfl rfl rfl (fun hx => hx) rfl
    have hu := hr.forgetAny waiter
    cases hf with
    | ends _ => exact hu.setStage trivial
    | closes hl =>
      have hl' := (life_forgetAny (c₁.record (.unsent n e)).yield waiter).trans
        (hs.life_eq.trans hl)
      exact hu.breakOff hl' _ (.call n)
  | conclude hs hr => exact h.conclude _ _ _
  | dropSend hs =>
    exact Sealed.setStage ((h.forgetAny _).of_eq rfl rfl rfl rfl (fun hx => hx) rfl) trivial
  | dropWait hs => exact (h.forget _).setStage trivial
  | close hm hl => exact h.breakOff hl _ _
  | @takeHalf t k hs hh hw =>
    have hd : Sealed { c with
        write := ({ c.write with half := .leaving } : WritePath).release } :=
      same rfl rfl rfl rfl rfl
    exact hd.toShutdown (h.isPast_of_inCloseLock hs) k t
  | findGone hs hh hw =>
    have hd : Sealed { c with write := c.write.release } := same rfl rfl rfl rfl rfl
    exact hd.setClosed (h.isPast_of_inCloseLock hs)
  | shut hs =>
    have hd : Sealed { c with write := { c.write with half := .gone } } := same rfl rfl rfl rfl rfl
    exact hd.setClosed (h.isPast_of_inShutdown hs)
  | rest hs hl hk => exact h.setStage (Life.allows_endsIn hk)
  | endReader hl =>
    have hd : Sealed { c with write := if c.held then c.write else c.write.dropHalf } :=
      same rfl rfl rfl rfl rfl
    exact hd.setReader nofun nofun
  | keepReading hr => exact h.setReader nofun nofun
  | route hr ha f =>
    refine Sealed.congr (Sealed.routed ?_ f) (core_route c f).symm
    exact same rfl rfl rfl rfl rfl
  | letGo hs hh => exact same rfl rfl rfl rfl rfl

theorem addCall (h : Sealed c) (job : Job) : Sealed (c.addCall job) where
  fits n := by
    have hf := h.fits n
    rcases stage_addCall c job n with hs | hs
    · rwa [hs]
    · rw [hs]
      trivial
  reader := h.reader
  begun := h.begun
  closed := h.closed
  empty := h.empty

theorem initial (config : Config) : Sealed (Client.initial config) :=
  ⟨fun _ => trivial, nofun, fun hx => absurd rfl hx, fun hx => absurd rfl hx.ne_unconnected,
    fun _ => rfl⟩

end Sealed

theorem Possible.sealed {config : Config} (h : Possible config c) : Sealed c :=
  (h.induct (P := fun c => Guarded c ∧ Sealed c)
    (fun hm hx => ⟨Guarded.move hm hx.1, Sealed.move hm hx.1 hx.2⟩)
    (fun job hx => ⟨hx.1.addCall job, hx.2.addCall job⟩)
    ⟨Guarded.initial config, Sealed.initial config⟩).2

theorem Sealed.connected_of_registered (h : Sealed c) (hc : Correlated c) {id : String}
    (hg : Registered c.journal n id) : c.life = .connected := by
  by_contra hl
  obtain ⟨w, -, -, -, hx, -⟩ := hc.of_registered hg
  rw [h.empty hl] at hx
  cases hx

/-! ### One way -/

theorem life_route (c : Client) (f : Frame) : (c.route f).life = c.life :=
  (life_eq (core_route c f)).trans (life_of_outline (outline_routed _ f))

/-- What a move may do to the life of a connection. -/
inductive Ages (c c' : Client) : Prop
  | same (hl : c'.life = c.life)
  | opens (hu : c.life = .unconnected) (hl : c'.life = .connected)
  | closing {j : List Incident} (ho : c.life = .connected) (hl : c'.life = .closing)
      (hj : c'.journal = j ++ [.closing])
  | closed (hp : c.life.IsPast) (hl : c'.life = .closed)

/-- **The life of a connection goes one way.** -/
theorem Sealed.ages (h : Sealed c) (hg : Guarded c) (hm : c.Move c') : c.Ages c' := by
  cases hm with
  | quiet hq => exact .same (life_eq hq).symm
  | establish hs hr => exact .opens (h.unconnected_of_handshake hg hs) rfl
  | begin he hf hw => exact .same (Sends.atOnce he).life_eq
  | @fail c₁ c' n waiter e hs he hf =>
    cases hf with
    | ends _ => exact .same ((life_forgetAny _ _).trans hs.life_eq)
    | closes hl => exact .closing hl rfl rfl
  | conclude hs hr =>
    obtain ⟨r, hq⟩ := outline_conclude _ _ _ _
    exact .same ((life_of_outline hq).trans rfl)
  | dropSend hs => exact .same (life_forgetAny _ _)
  | close hm hl => exact .closing hl rfl rfl
  | findGone hs => exact .closed (h.isPast_of_inCloseLock hs) rfl
  | shut hs => exact .closed (h.isPast_of_inShutdown hs) rfl
  | @takeHalf t k => cases t <;> exact .same rfl
  | route hr ha f => exact .same (life_route c f)
  | _ => exact .same rfl

theorem Ages.ne_unconnected (h : c.Ages c') (hu : c.life ≠ .unconnected) :
    c'.life ≠ .unconnected := by
  cases h with
  | same hl => rwa [hl]
  | opens _ hl => simp [hl]
  | closing _ hl => simp [hl]
  | closed _ hl => simp [hl]

theorem Ages.isPast (h : c.Ages c') (hp : c.life.IsPast) : c'.life.IsPast := by
  cases h with
  | same hl => rwa [hl]
  | opens hu hl => exact absurd hu hp.ne_unconnected
  | closing ho hl hj => exact absurd ho hp.ne_connected
  | closed _ hl => exact .inr hl

end Client

end DocWire
