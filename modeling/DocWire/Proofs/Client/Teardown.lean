import DocWire.Proofs.Client.Potential
import DocWire.Proofs.Client.Sealed
import DocWire.Proofs.Client.Stages

/-! # Taking the connection down

Whoever begins to close goes for the write path, takes the writing half of the stream out of it and
shuts it down. No two tasks do this at once (`Teardown`): closing begins once, and a task that has
begun is the only one until the connection is closed. If it is given up in between, nobody takes its
place. A connection that is closed has lost its writing half. -/

namespace DocWire.Client

open DocWire.Correlator (Waiter)

variable {c c' c₁ d : Client} {n : Nat} {t t' : Task} {k : AfterClose} {s : Stage}

/-- Whether a call takes the connection down. -/
def IsClosingStage : Stage → Prop
  | .closeLock _ | .closeShutdown _ => True
  | _ => False

/-- Whether a task takes the connection down. -/
def TearsDown (c : Client) : Task → Prop
  | .reader => c.reader = .closeLock ∨ c.reader = .closeShutdown
  | .call n => IsClosingStage (c.stage n)

/-- **The invariant of taking the connection down.** -/
structure Teardown (c : Client) : Prop where
  sole : ∀ {t t'}, c.TearsDown t → c.TearsDown t' → t = t'
  leaving : c.write.half = .leaving → ∃ t k, c.InShutdown k t
  gone : c.life = .closed → c.write.half = .gone

theorem tearsDown_of_inCloseLock (h : c.InCloseLock k t) : c.TearsDown t := by
  cases t with
  | reader => exact .inl h
  | call n =>
    have h : c.stage n = .closeLock k := h
    change IsClosingStage (c.stage n)
    rw [h]
    trivial

theorem tearsDown_of_inShutdown (h : c.InShutdown k t) : c.TearsDown t := by
  cases t with
  | reader => exact .inr h
  | call n =>
    have h : c.stage n = .closeShutdown k := h
    change IsClosingStage (c.stage n)
    rw [h]
    trivial

theorem Sealed.isPast_of_tearsDown (h : Sealed c) (ht : c.TearsDown t) : c.life.IsPast := by
  cases t with
  | reader => exact h.reader ht
  | call n =>
    have hf := h.fits n
    have ht : IsClosingStage (c.stage n) := ht
    cases hs : c.stage n with
    | closeLock k => rwa [hs] at hf
    | closeShutdown k => rwa [hs] at hf
    | _ =>
      rw [hs] at ht
      exact ht.elim

theorem reader_of_outline (h : c.outline = c'.outline) : c.reader = c'.reader := by
  have hr := congrArg reader h
  exact hr

theorem Enters.outline {message : ClientMessage} {waiter : Option Waiter}
    (h : c.Enters n message waiter c₁) : c₁.outline = c.outline := by
  cases h <;> rfl

theorem Sends.outline {waiter : Option Waiter} (h : c.Sends n waiter c₁) :
    c₁.outline = c.outline := by
  cases h with
  | atOnce he => exact he.outline
  | later hs => rfl

/-- A call that sends, or is about to, has the write path or is sending. -/
theorem Sends.stage_eq {waiter : Option Waiter} (h : c.Sends n waiter c₁) :
    c.stage n = .lock ∨ ∃ s, c.stage n = .send s := by
  cases h with
  | atOnce he => exact .inl he.stage_eq_lock
  | later hs => exact .inr ⟨_, hs⟩

theorem not_isClosingStage_endsIn (h : k.EndsIn s) : ¬ IsClosingStage s := by
  cases k with
  | finish r =>
    have hs : s = .done r := h
    rw [hs]
    exact id
  | join => rcases h with rfl | rfl <;> exact id

theorem not_inShutdown_of_inCloseLock {k' : AfterClose} (h : c.InCloseLock k t) :
    ¬ c.InShutdown k' t := by
  cases t with
  | reader =>
    intro h'
    cases (show c.reader = .closeLock from h).symm.trans h'
  | call n =>
    intro h'
    cases (show c.stage n = .closeLock k from h).symm.trans h'

namespace Teardown

theorem congr (h : Teardown c) (hq : c.outline = c'.outline) : Teardown c' := by
  have ho : Teardown c.outline := ⟨h.sole, h.leaving, h.gone⟩
  rw [hq] at ho
  exact ⟨ho.sole, ho.leaving, ho.gone⟩

theorem setWrite (h : Teardown c) {write : WritePath} (hw : write.half = c.write.half ∨
    c.write.half = .held ∧ write.half = .gone) : Teardown { c with write := write } where
  sole := h.sole
  leaving hx := by
    have hx : write.half = .leaving := hx
    rcases hw with hw | ⟨-, hw⟩
    · exact h.leaving (hw ▸ hx)
    · cases hw.symm.trans hx
  gone hl := by
    have hg := h.gone hl
    rcases hw with hw | ⟨-, hw⟩
    · exact hw.trans hg
    · exact hw

theorem yield (h : Teardown c) : Teardown c.yield := by
  refine h.setWrite ?_
  rw [WritePath.half_leave]
  split
  next hx => exact .inr ⟨hx.2, rfl⟩
  next => exact .inl rfl

theorem dropHalf (h : Teardown c) : Teardown { c with write := c.write.dropHalf } := by
  refine h.setWrite ?_
  rw [WritePath.half_dropHalf]
  split
  next hx => exact .inr ⟨hx, rfl⟩
  next => exact .inl rfl

theorem tearsDown_of_setStage (hs : ¬ IsClosingStage s) (ht : (c.setStage n s).TearsDown t) :
    c.TearsDown t := by
  cases t with
  | reader => exact ht
  | call i =>
    have ht : IsClosingStage ((c.setStage n s).stage i) := ht
    rw [stage_setStage] at ht
    split at ht
    · exact absurd ht hs
    · exact ht

/-- A call that has not the writing half in its hands leaves the others to it. -/
theorem setStage (h : Teardown c) {s₀ : Stage} (hn : c.stage n = s₀)
    (h₀ : ∀ k, s₀ ≠ .closeShutdown k) (hs : ¬ IsClosingStage s) : Teardown (c.setStage n s) where
  sole ht ht' := h.sole (tearsDown_of_setStage hs ht) (tearsDown_of_setStage hs ht')
  leaving hx := by
    obtain ⟨t, k, ht⟩ := h.leaving hx
    refine ⟨t, k, ?_⟩
    cases t with
    | reader => exact ht
    | call i =>
      have ht : c.stage i = .closeShutdown k := ht
      have hi : ¬ (i = n ∧ n < c.calls.length) := fun hx => h₀ k (hn.symm.trans (hx.1 ▸ ht))
      change (c.setStage n s).stage i = .closeShutdown k
      rw [stage_setStage, if_neg hi, ht]
  gone := h.gone

/-- Nobody begins to take the connection down, and the writing half is not on its way. -/
theorem of_less (h : Teardown c) (ht : ∀ {t}, c'.TearsDown t → c.TearsDown t)
    (hw : c'.write.half ≠ .leaving) (hg : c'.life = .closed → c'.write.half = .gone) :
    Teardown c' :=
  ⟨fun hx hx' => h.sole (ht hx) (ht hx'), fun hx => absurd hx hw, hg⟩

theorem setReader (h : Teardown c) {r : ReaderStage} (hr : r ≠ .closeLock ∧ r ≠ .closeShutdown)
    (hs : c.reader = .closeShutdown → c.life = .closed) : Teardown { c with reader := r } := by
  have hx : ∀ {t}, ({ c with reader := r } : Client).TearsDown t → c.TearsDown t := fun {t} ht => by
    cases t with
    | reader => exact (ht.elim hr.1 hr.2).elim
    | call n => exact ht
  refine ⟨fun ht ht' => h.sole (hx ht) (hx ht'), fun hw => ?_, h.gone⟩
  have hw : c.write.half = .leaving := hw
  obtain ⟨t, k, ht⟩ := h.leaving hw
  cases t with
  | reader => cases hw.symm.trans (h.gone (hs ht))
  | call n => exact ⟨.call n, k, ht⟩

theorem dropStream (h : Teardown c) : Teardown c.dropStream := by
  refine h.of_less (fun {t} ht => ?_) nofun fun _ => rfl
  cases t with
  | reader => rcases ht with ht | ht <;> cases ht
  | call n => exact ht

theorem breakOff (h : Teardown c) (hx : Sealed c) (hl : c.life = .connected) (k : AfterClose)
    (t : Task) : Teardown (c.toCloseLock k t).breakOff := by
  have hn : ∀ {t'}, ¬ c.TearsDown t' := fun ht => (hx.isPast_of_tearsDown ht).ne_connected hl
  have hone : ∀ {t'}, (c.toCloseLock k t).breakOff.TearsDown t' → t' = t := fun {t'} ht => by
    cases t with
    | reader =>
      cases t' with
      | reader => rfl
      | call i => exact (hn (show c.TearsDown (.call i) from ht)).elim
    | call n =>
      cases t' with
      | reader => exact (hn (show c.TearsDown .reader from ht)).elim
      | call i =>
        have ht : IsClosingStage ((c.setStage n (.closeLock k)).stage i) := ht
        rw [stage_setStage] at ht
        split at ht
        next hi => rw [hi.1]
        next => exact (hn (show c.TearsDown (.call i) from ht)).elim
  refine ⟨fun ht ht' => (hone ht).trans (hone ht').symm, fun hw => ?_, nofun⟩
  have hw : c.write.half = .leaving := by cases t <;> exact hw
  obtain ⟨t', k', ht⟩ := h.leaving hw
  exact absurd (tearsDown_of_inShutdown ht) hn

/-- The holder of the write path takes the writing half out of it. -/
theorem takeHalf (h : Teardown c) (hs : c.InCloseLock k t) (hw : c.write.half = .held)
    {write : WritePath} : Teardown (({ c with write := write }).toShutdown k t) := by
  have hx : ∀ {t'}, (({ c with write := write }).toShutdown k t).TearsDown t' → c.TearsDown t' :=
    fun {t'} ht => by
      cases t with
      | reader =>
        cases t' with
        | reader => exact .inl hs
        | call i => exact ht
      | call n =>
        cases t' with
        | reader => exact ht
        | call i =>
          have ht : IsClosingStage ((c.setStage n (.closeShutdown k)).stage i) := ht
          rw [stage_setStage] at ht
          split at ht
          next hi => exact hi.1 ▸ tearsDown_of_inCloseLock hs
          next => exact ht
  have hs' : ({ c with write := write } : Client).InCloseLock k t := by cases t <;> exact hs
  refine ⟨fun ht ht' => h.sole (hx ht) (hx ht'), fun _ => ⟨t, k, inShutdown_toShutdown hs'⟩,
    fun hc => ?_⟩
  have hc : c.life = .closed := by cases t <;> exact hc
  cases hw.symm.trans (h.gone hc)

/-- Where the writing half is not any more it has gone. -/
theorem half_eq_gone (h : Teardown c) (hg : Guarded c) (hx : Sealed c) (hs : c.InCloseLock k t)
    (hw : c.write.half ≠ .held) : c.write.half = .gone := by
  have hb := (hx.begun (hx.isPast_of_inCloseLock hs).ne_unconnected).1
  cases hh : c.write.half with
  | unused => exact absurd (hg.young (.inl hh)) hb
  | unsplit => exact absurd (hg.young (.inr hh)) hb
  | held => exact absurd hh hw
  | leaving =>
    obtain ⟨t', k', ht⟩ := h.leaving hh
    obtain rfl := h.sole (tearsDown_of_inCloseLock hs) (tearsDown_of_inShutdown ht)
    exact absurd ht (not_inShutdown_of_inCloseLock hs)
  | gone => rfl

/-- **The invariant is preserved by every move.** -/
theorem move (hm : c.Move c') (hg : Guarded c) (hx : Sealed c) (h : Teardown c) : Teardown c' := by
  have same : ∀ {d : Client}, d.outline = c.outline → Teardown d := fun hq => h.congr hq.symm
  cases hm with
  | quiet hq => exact h.congr (outline_core hq)
  | tick | unroute => exact same rfl
  | connect hs hj hu hb =>
    have hl : c.life ≠ .closed := fun hc => by cases hu.symm.trans (h.gone hc)
    have hw : Teardown { c with write := { c.write with half := .unsplit } } :=
      h.of_less id nofun fun hc => absurd hc hl
    exact hw.setStage hs nofun id
  | shake hs hr => exact Teardown.setStage (same rfl) hs nofun id
  | @establish n due e session source peer hs hr =>
    have ha : Teardown (({ c with peer := peer } : Client).accept session) :=
      h.of_less (fun {t} ht => by
        cases t with
        | reader => rcases ht with ht | ht <;> cases ht
        | call i => exact ht) nofun nofun
    exact ha.setStage hs nofun id
  | miss hs hr hp => exact Teardown.setStage (Teardown.dropStream (same rfl)) hs nofun id
  | abandon hs => exact h.dropStream.setStage hs nofun id
  | refuse hs hj hu hb => exact h.dropStream.setStage hs nofun id
  | turnDown hs | tooLate hs | leaveItAt hs | waitForReader hs | joined hs =>
    exact h.setStage hs nofun id
  | lineUp hs hl hj =>
    refine Teardown.setStage ?_ hs nofun id
    exact h.setWrite (.inl (WritePath.half_acquire _ _))
  | turnAway hs hh hj hr =>
    have hu : Teardown c.useId := same rfl
    exact hu.yield.setStage hs nofun id
  | pass hs hh hj => exact h.yield.setStage hs nofun id
  | begin he hf hw =>
    have hs := (stage_congr he.calls_eq _).trans he.stage_eq_lock
    exact (same he.outline).setStage hs nofun id
  | @write n s out rest hs hb =>
    have hp : Teardown { c with peer := { c.peer with taken := c.peer.taken ++ out } } := same rfl
    refine Teardown.setStage ?_ hs nofun id
    exact hp.setWrite (.inl rfl)
  | @sent n s hs hr =>
    have hr : Teardown (c.record (.sent n c.now)) := same rfl
    refine hr.yield.setStage hs nofun ?_
    cases s.waiter <;> exact id
  | @fail c₁ c' n waiter e hs he hf =>
    have hr : Teardown (c₁.record (.unsent n e)) := same hs.outline
    have hu := hr.yield.congr (outline_forgetAny _ waiter).symm
    have hc : ((c₁.record (.unsent n e)).yield.forgetAny waiter).calls = c.calls :=
      (calls_forgetAny _ _).trans hs.calls_eq
    cases hf with
    | ends _ =>
      rcases hs.stage_eq with hs | ⟨s, hs⟩
      all_goals exact hu.setStage ((stage_congr hc n).trans hs) nofun id
    | closes hl =>
      have hy : Sealed (c₁.record (.unsent n e)).yield :=
        (hx.sends hs).of_eq rfl rfl rfl rfl (fun hx => hx) rfl
      exact hu.breakOff (hy.forgetAny waiter)
        ((life_forgetAny _ _).trans (hs.life_eq.trans hl)) _ (.call n)
  | conclude hs hr =>
    obtain ⟨r', hq⟩ := outline_conclude c _ _ _
    exact Teardown.congr (h.setStage hs nofun id) hq.symm
  | dropIdle hs =>
    rcases hs with hs | hs <;> exact h.setStage hs nofun id
  | dropLine hs =>
    rcases hs with hs | ⟨k, hs⟩
    all_goals
      refine Teardown.setStage ?_ hs nofun id
      exact h.setWrite (.inl (WritePath.half_withdraw _ _))
  | @dropSend n s hs =>
    have hu := (h.congr (outline_forgetAny c s.waiter).symm).yield
    exact hu.setStage ((stage_congr (calls_forgetAny c s.waiter) n).trans hs) nofun id
  | @dropWait n due w hs =>
    have hu : Teardown (c.forget w) := same rfl
    exact hu.setStage hs nofun id
  | dropShutdown hs =>
    exact h.of_less (fun ht => tearsDown_of_setStage id ht) nofun fun _ => rfl
  | close hm hl => exact h.breakOff hx hl _ _
  | lineUpToClose hs hl => exact h.setWrite (.inl (WritePath.half_acquire _ _))
  | takeHalf hs hh hw => exact h.takeHalf hs hw
  | findGone hs hh hw =>
    have hw' := (WritePath.half_release c.write).trans (h.half_eq_gone hg hx hs hw)
    refine h.of_less id (fun hy => ?_) fun _ => hw'
    cases hw'.symm.trans hy
  | shut hs => exact h.of_less id nofun fun _ => rfl
  | rest hs hl hk =>
    refine h.of_less (fun ht => tearsDown_of_setStage ?_ ht) ?_ fun _ => h.gone hl
    · exact not_isClosingStage_endsIn hk
    · exact fun hy => by cases (h.gone hl).symm.trans hy
  | endReader hl hr =>
    have he : Teardown { c with reader := .ended } := by
      refine h.setReader ⟨nofun, nofun⟩ fun hs => hr.resolve_right ?_
      rintro ⟨b, hb⟩
      cases hb.symm.trans hs
    split
    · exact he
    · exact he.dropHalf
  | keepReading hr => exact h.setReader ⟨nofun, nofun⟩ fun hx => by cases hr.symm.trans hx
  | route hr ha f =>
    exact h.congr ((outline_core (core_route c f)).trans (outline_routed _ f)).symm
  | letGo hs hh =>
    have he : Teardown { c with held := false } := ⟨h.sole, h.leaving, h.gone⟩
    split
    · exact he
    · exact he.dropHalf

theorem addCall (h : Teardown c) (job : Job) : Teardown (c.addCall job) := by
  have hx : ∀ {t}, (c.addCall job).TearsDown t → c.TearsDown t := fun {t} ht => by
    cases t with
    | reader => exact ht
    | call n =>
      have ht : IsClosingStage ((c.addCall job).stage n) := ht
      change IsClosingStage (c.stage n)
      rcases stage_addCall c job n with hs | hs
      · rwa [hs] at ht
      · rw [hs] at ht
        exact ht.elim
  refine ⟨fun ht ht' => h.sole (hx ht) (hx ht'), fun hw => ?_, h.gone⟩
  obtain ⟨t, k, ht⟩ := h.leaving hw
  refine ⟨t, k, ?_⟩
  cases t with
  | reader => exact ht
  | call n =>
    have ht : c.stage n = .closeShutdown k := ht
    exact (stage_addCall_of_lt (lt_of_stage_ne_dropped (by simp [ht])) job).trans ht

theorem initial (config : Config) : Teardown (Client.initial config) := by
  have hn : ∀ {t}, ¬ (Client.initial config).TearsDown t := fun {t} ht => by
    cases t with
    | reader => rcases ht with ht | ht <;> cases ht
    | call n => exact ht
  exact ⟨fun ht => absurd ht hn, nofun, nofun⟩

end Teardown

/-- A reader that takes the connection down goes on with it until it is closed. -/
theorem Sealed.tearsDown_reader (h : Sealed c) (hg : Guarded c) (hm : c.Move c')
    (hr : c.TearsDown .reader) : c'.TearsDown .reader ∨ c'.life = .closed := by
  have hp := h.isPast_of_tearsDown hr
  have reads : ∀ {b}, c.reader ≠ .reading b := fun hb => by
    rcases hr with hr | hr <;> cases hb.symm.trans hr
  have same : c'.reader = c.reader → c'.TearsDown .reader ∨ c'.life = .closed := fun he => by
    refine .inl ?_
    change c'.reader = _ ∨ c'.reader = _
    rw [he]
    exact hr
  cases hm with
  | quiet hq => exact same (reader_eq hq).symm
  | establish hs hr' | miss hs hr' hp' | abandon hs =>
    exact absurd (h.unconnected_of_handshake hg hs) hp.ne_unconnected
  | refuse hs hj hu hb => exact absurd (hg.young (.inl hu)) (h.begun hp.ne_unconnected).1
  | begin he hf hw =>
    have hq := reader_of_outline he.outline
    exact same hq
  | @fail c₁ _ n waiter e hs he hf =>
    have hc := reader_of_outline hs.outline
    have hq := (reader_forgetAny (c₁.record (.unsent n e)).yield waiter).trans hc
    cases hf with
    | ends _ => exact same hq
    | closes _ => exact same hq
  | conclude hs hr' =>
    obtain ⟨r', hq⟩ := outline_conclude _ _ _ _
    have hq := reader_of_outline hq
    exact same hq
  | dropSend hs => exact same (reader_forgetAny c _)
  | close hm hl => exact absurd hl hp.ne_connected
  | @takeHalf t k hs hh hw =>
    cases t with
    | reader => exact .inl (.inr rfl)
    | call n => exact same rfl
  | endReader hl hr' => exact .inr (hr'.resolve_right fun ⟨b, hb⟩ => reads hb)
  | keepReading hr' => exact absurd hr' reads
  | route hr' ha f => exact absurd hr' reads
  | _ => exact same rfl

end DocWire.Client
