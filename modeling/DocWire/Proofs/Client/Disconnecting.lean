import DocWire.Proofs.Client.Draining
import DocWire.Proofs.Client.Terminal

/-! # What a disconnect leaves behind

When a call that disconnects is done, closing has begun, no request is under way and no subscription
is open. The connection is closed by then if the call has found it open, or closed, or being closed by
a reader whose end nobody else waits for (`Possible.disconnects`). A call that finds it being closed by
another call does not wait for that one: it is done while the writing half is still being shut down. -/

namespace DocWire.Client

variable {c c' : Client} {config : Config} {n : Nat} {r : Except Failure Outcome}

theorem Move.length_calls (hm : c.Move c') : c'.calls.length = c.calls.length := by
  rcases hm.calls_eq with h | ⟨m, s, h⟩
  · rw [h]
  · rw [h, length_setStage]

/-- The connection is closed, or will be before a call is done; a call that is `joining` waits for a
reader that closes it. -/
inductive ClosesFirst (c : Client) (n : Nat) : Prop
  | closed (hl : c.life = .closed)
  | dropped (hn : n < c.calls.length) (hs : c.stage n = .dropped)
  | lining (hs : c.stage n = .closeLock .join)
  | shutting (hs : c.stage n = .closeShutdown .join)
  | joining (hs : c.stage n = .join) (hr : c.TearsDown .reader)

namespace ClosesFirst

/-- **A call that has closed the connection, or waits until it is, is not done before.** -/
theorem move (hl : Lawful c) (hm : c.Move c') (h : c.ClosesFirst n) : c'.ClosesFirst n := by
  have gone : n < c.calls.length → c'.stage n = .dropped → c'.ClosesFirst n := fun hn hs =>
    .dropped (hm.length_calls ▸ hn) hs
  cases h with
  | closed hc =>
    cases hl.closes.ages hl.guarded hm with
    | same he => exact .closed (he.trans hc)
    | opens hu _ => cases hc.symm.trans hu
    | closing ho _ _ => cases hc.symm.trans ho
    | closed _ he => exact .closed he
  | dropped hn hs =>
    cases hm.proceeds n with
    | stays hs' => exact gone hn (hs'.trans hs)
    | givenUp hs' => exact gone hn hs'
    | begins hs' | enters hs' | takes hs' | joins hs' => cases hs.symm.trans hs'
    | works hw => exact (hs ▸ hw : IsWorkingStage .dropped).elim
    | rests hs' => rcases hs' with hs' | hs' <;> cases hs.symm.trans hs'
  | lining hs =>
    cases hm.proceeds n with
    | stays hs' => exact .lining (hs'.trans hs)
    | givenUp hs' => exact gone (lt_of_stage_ne_dropped (by simp [hs])) hs'
    | begins hs' | enters hs' | joins hs' => cases hs.symm.trans hs'
    | takes hs₁ hs' =>
      cases hs.symm.trans hs₁
      exact .shutting hs'
    | works hw => exact (hs ▸ hw : IsWorkingStage (.closeLock .join)).elim
    | rests _ hc => exact .closed hc
  | shutting hs =>
    cases hm.proceeds n with
    | stays hs' => exact .shutting (hs'.trans hs)
    | givenUp hs' => exact gone (lt_of_stage_ne_dropped (by simp [hs])) hs'
    | begins hs' | enters hs' | takes hs' | joins hs' => cases hs.symm.trans hs'
    | works hw => exact (hs ▸ hw : IsWorkingStage (.closeShutdown .join)).elim
    | rests _ hc => exact .closed hc
  | joining hs hr =>
    cases hm.proceeds n with
    | stays hs' =>
      rcases hl.closes.tearsDown_reader hl.guarded hm hr with hr' | hc
      · exact .joining (hs'.trans hs) hr'
      · exact .closed hc
    | givenUp hs' => exact gone (lt_of_stage_ne_dropped (by simp [hs])) hs'
    | begins hs' | enters hs' | takes hs' => cases hs.symm.trans hs'
    | works hw => exact (hs ▸ hw : IsWorkingStage .join).elim
    | rests hs' => rcases hs' with hs' | hs' <;> cases hs.symm.trans hs'
    | joins _ he => rcases hr with hr | hr <;> cases he.symm.trans hr

theorem addCall (job : Job) (h : c.ClosesFirst n) : (c.addCall job).ClosesFirst n := by
  have hs : ∀ {s}, c.stage n = s → n < c.calls.length → (c.addCall job).stage n = s :=
    fun hs hn => (stage_addCall_of_lt hn job).trans hs
  cases h with
  | closed hl => exact .closed hl
  | dropped hn hd =>
    refine .dropped ?_ (hs hd hn)
    rw [Client.addCall, List.length_append]
    exact Nat.lt_add_right _ hn
  | lining h => exact .lining (hs h (lt_of_stage_ne_dropped (by simp [h])))
  | shutting h => exact .shutting (hs h (lt_of_stage_ne_dropped (by simp [h])))
  | joining h hr => exact .joining (hs h (lt_of_stage_ne_dropped (by simp [h]))) hr

theorem onward (h : c.ClosesFirst n) (hl : Lawful c) (h' : c.Onward c') : c'.ClosesFirst n :=
  h'.induct_lawful (P := fun d => d.ClosesFirst n) (fun hl hm hx => hx.move hl hm)
    (fun job _ hx => hx.addCall job) hl h

theorem life_eq (h : c.ClosesFirst n) (hs : c.stage n = .done r) : c.life = .closed := by
  cases h with
  | closed hl => exact hl
  | dropped _ hs' | lining hs' | shutting hs' | joining hs' _ => cases hs.symm.trans hs'

end ClosesFirst

/-! ### The call that disconnects -/

theorem Lawful.exists_breakOff (h : Lawful c) (hs : c.stage n = .fresh)
    (hj : c.job n = .disconnect) (hl : c.life = .connected) :
    ∃ d, Lawful d ∧ d.life.IsPast ∧ d.stage n = .closeLock .join ∧ d.Moves (c.turn (.call n)) := by
  have hm : ({ c with ready := c.ready.erase (.call n) } : Client).MayClose .join (.call n) :=
    ⟨hs, hj, rfl⟩
  have hq : c.Move { c with ready := c.ready.erase (.call n) } := .quiet rfl
  have h₀ := Lawful.move hq h
  refine ⟨_, Lawful.move (.close hm hl) h₀, .inl rfl, inCloseLock_toCloseLock hm, ?_⟩
  rw [turn_disconnect hs hj, close, if_pos hl]
  exact moves_afterBreakOff (inCloseLock_toCloseLock hm)

/-- Once the call has had its turn, closing has begun. -/
theorem Lawful.isPast_turn (h : Lawful c) (hs : c.stage n = .fresh) (hj : c.job n = .disconnect)
    (hu : c.life ≠ .unconnected) : (c.turn (.call n)).life.IsPast := by
  by_cases hl : c.life = .connected
  · obtain ⟨d, hd, hp, -, hm⟩ := h.exists_breakOff hs hj hl
    exact hm.induct_lawful (P := fun d => d.life.IsPast) isPast_move hd hp
  · have hp : c.life.IsPast := Life.isPast_iff.2 ⟨hu, hl⟩
    exact (Moves.turn c _).induct_lawful (P := fun d => d.life.IsPast) isPast_move h hp

/-- A call that finds the connection being closed by a reader whose end nobody else waits for does
so itself. -/
theorem joining_turn (hs : c.stage n = .fresh) (hj : c.job n = .disconnect)
    (hl : c.life = .closing) (hx : c.joinable = true) (hr : c.TearsDown .reader) :
    (c.turn (.call n)).ClosesFirst n := by
  have hn : n < c.calls.length := lt_of_stage_ne_dropped (by simp [hs])
  have he : c.reader ≠ .ended := fun he => by rcases hr with hr | hr <;> cases he.symm.trans hr
  rw [turn_disconnect hs hj]
  unfold close
  rw [if_neg (by simp [hl])]
  unfold afterClose joinReader
  dsimp only
  rw [if_pos hx, if_neg he]
  exact .joining (stage_setStage_self hn _) hr

theorem Lawful.closesFirst_turn (h : Lawful c) (hs : c.stage n = .fresh)
    (hj : c.job n = .disconnect) (hu : c.life ≠ .unconnected)
    (hx : c.life = .closing → c.joinable = true ∧ c.TearsDown .reader) :
    (c.turn (.call n)).ClosesFirst n := by
  cases hl : c.life with
  | unconnected => exact absurd hl hu
  | connected =>
    obtain ⟨d, hd, -, hc, hm⟩ := h.exists_breakOff hs hj hl
    exact hm.induct_lawful (P := fun d => d.ClosesFirst n) (fun hl hm hx => hx.move hl hm) hd
      (.lining hc)
  | closing => exact joining_turn hs hj hl (hx hl).1 (hx hl).2
  | closed =>
    exact (Moves.turn c _).induct_lawful (P := fun d => d.ClosesFirst n)
      (fun hl hm hx => hx.move hl hm) h (.closed hl)

/-- What a call that has disconnected leaves behind: it had its first turn in one state, and is done
in another. If it has found the connection open, or closed, or being closed by a reader whose end
nobody else waits for, the connection is closed. -/
structure Disconnected (c c' : Client) : Prop where
  past : c'.life = .closing ∨ c'.life = .closed
  pending : c'.correlator.size = 0
  subscriptions : c'.routes.size = 0
  closed : (c.life = .closing → c.joinable = true ∧ c.TearsDown .reader) →
    c'.life = .closed ∧ c'.write.half = .gone

/-- **When a call that disconnects is done, the connection is closed**, unless it was being closed
already when the call set out. -/
theorem Possible.disconnects (h : Possible config c) (hs : c.stage n = .fresh)
    (hj : c.job n = .disconnect) (hu : c.life ≠ .unconnected)
    (h' : (c.turn (.call n)).Onward c') (hd : c'.stage n = .done r) : c.Disconnected c' := by
  have hl := (h.onward (.turn (.refl c) (.call n))).lawful
  have hl' := hl.onward h'
  have hp := h'.isPast hl (h.lawful.isPast_turn hs hj hu)
  obtain ⟨hz, hr⟩ := hl'.size_eq_zero hp
  refine ⟨hp, hz, hr, fun hx => ?_⟩
  have hc := ((h.lawful.closesFirst_turn hs hj hu hx).onward hl h').life_eq hd
  exact ⟨hc, hl'.teardown.gone hc⟩

theorem stage_eq_done (h : (match c.stage n with
    | .done (.ok .done) => true
    | _ => false) = true) : c.stage n = .done (.ok .done) := by
  split at h
  next hs => exact hs
  next => cases h

theorem job_eq_disconnect (h : (match c.job n with
    | .disconnect => true
    | _ => false) = true) : c.job n = .disconnect := by
  split at h
  next hj => exact hj
  next => cases h

theorem disconnects_following :
    ((following.act (.start .disconnect)).turn (.call 4)).settle.stage 4 = .done (.ok .done) ∧
      (following.act (.start .disconnect)).Disconnected
        ((following.act (.start .disconnect)).turn (.call 4)).settle := by
  have hf : Reachable .default following := reachable_performAll _ _
  have h : Possible .default (following.act (.start .disconnect)) := hf.possible.act _
  obtain ⟨hs, hj⟩ := stage_start following .disconnect
  have hn : following.calls.length = 4 := by decide +kernel
  rw [hn] at hs hj
  have hd : ((following.act (.start .disconnect)).turn (.call 4)).settle.stage 4 =
      .done (.ok .done) := stage_eq_done (by decide +kernel)
  exact ⟨hd, h.disconnects hs hj (by decide +kernel) (later_settleFor _ _).onward hd⟩

/-- A client that two calls disconnect, one after the other, while the peer puts off shutting down. -/
def parting : Client :=
  (initial .default).performAll
    [.start .connect, .feed [.chunk ([0, 1, 1] ++ List.replicate 16 7)],
      .change ⟨none, none, none, none, some .waits⟩, .start .disconnect, .start .disconnect]

/-- The second call is done while the first is still shutting the writing half down. -/
theorem parting_not_closed : Reachable .default parting ∧ parting.job 2 = .disconnect ∧
    parting.stage 2 = .done (.ok .done) ∧ (parting.stage 1).isOpen = true ∧
    parting.life = .closing ∧ parting.write.half = .leaving :=
  ⟨reachable_performAll _ _, job_eq_disconnect (by decide +kernel),
    stage_eq_done (by decide +kernel), by decide +kernel, by decide +kernel, by decide +kernel⟩

end DocWire.Client
