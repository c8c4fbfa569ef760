import DocWire.Proofs.Client.Guarded
import DocWire.Proofs.Correlator.Operations

/-! # From stage to stage

A move changes the stage of one call at most, and where a call can go depends on where it is.
`Proceeds` lists this for the calls that make no use of the stream: those that have not set out to
send, those that close the connection, and those that wait for the reader. -/

namespace DocWire.Client

open DocWire.Correlator (Waiter)

variable {c c' c₁ d : Client} {n m : Nat} {s : Stage}

/-- Whether a call is in the handshake, sends, or waits for its reply. -/
def IsWorkingStage : Stage → Prop
  | .handshake _ _ | .send _ | .await _ _ => True
  | _ => False

/-- What a move may do to the stage of a call. An operation sets out only while the connection is
open, and goes on with the write path only while requests can be registered. A call that closes the
connection rests when it is closed. -/
inductive Proceeds (c c' : Client) (n : Nat) : Prop
  | stays (hs : c'.stage n = c.stage n)
  | givenUp (hs : c'.stage n = .dropped)
  | begins (hs : c.stage n = .fresh) (hx : ∀ op, c.job n = .operation op →
      c.life = .connected ∨
        ∃ e, c'.stage n = .done (.error e) ∧ (e = .connectionClosed ∨ op.refusal? = some e))
  | enters (hs : c.stage n = .lock) (hx : ∀ op, c.job n = .operation op →
      c.correlator.closed = false ∨ c'.stage n = .done (.error .connectionClosed))
  | works (hs : IsWorkingStage (c.stage n))
  | takes {k : AfterClose} (hs : c.stage n = .closeLock k)
      (hs' : c'.stage n = .closeShutdown k)
  | rests {k : AfterClose} (hs : c.stage n = .closeLock k ∨ c.stage n = .closeShutdown k)
      (hl : c'.life = .closed)
  | joins (hs : c.stage n = .join) (hr : c.reader = .ended)

namespace Proceeds

theorem of_calls (h : c'.calls = c.calls) : c.Proceeds c' n := .stays (stage_congr h n)

theorem of_setStage (hc : c'.calls = (c.setStage m s).calls)
    (hx : c'.stage m = s → c.Proceeds c' m) : c.Proceeds c' n := by
  have hs := stage_setStage c m n s
  rw [← stage_congr hc] at hs
  split at hs
  next hn =>
    obtain ⟨rfl, -⟩ := hn
    exact hx hs
  next => exact .stays hs

end Proceeds

theorem calls_setStage (h : d.calls = c.calls) (n : Nat) (s : Stage) :
    (d.setStage n s).calls = (c.setStage n s).calls := by
  unfold setStage
  rw [h]

/-- While the registry is closed, no request is registered, and that is what the caller is told. -/
theorem register_error {κ : Type} {r : Correlator κ} {id : String} {sub : Option κ} {e : Failure}
    (h : r.register id sub = .error e) : r.closed = false ∨ e = .connectionClosed := by
  unfold Correlator.register at h
  split at h
  · exact .inr (Except.error.inj h).symm
  next hc => exact .inl (by simpa using hc)

/-- A call that has the write path and a request registers it, so requests can be registered. -/
theorem Enters.closed_eq_false {message : ClientMessage} {waiter : Option Waiter}
    (h : c.Enters n message waiter c₁) {op : Operation} (hj : c.job n = .operation op) :
    c.correlator.closed = false := by
  cases h with
  | request _ _ _ hr => exact (Correlator.register_ok hr).1
  | farewell _ _ hj' => cases hj.symm.trans hj'

/-- **Where a call can go from its stage.** -/
theorem Move.proceeds (hm : c.Move c') (n : Nat) : c.Proceeds c' n := by
  have work : ∀ {m s s'}, c.stage m = s → IsWorkingStage s →
      c'.calls = (c.setStage m s').calls → c.Proceeds c' n := fun hs hw hc =>
    .of_setStage hc fun _ => .works (hs ▸ hw)
  have other : ∀ {m s'}, c.stage m = .fresh → (∀ op, c.job m ≠ .operation op) →
      c'.calls = (c.setStage m s').calls → c.Proceeds c' n := fun hs hj hc =>
    .of_setStage hc fun _ => .begins hs fun op hx => absurd hx (hj op)
  have gone : ∀ {m}, c'.calls = (c.setStage m .dropped).calls → c.Proceeds c' n :=
    fun hc => .of_setStage hc .givenUp
  cases hm with
  | quiet hq => exact .of_calls (Client.calls_eq hq).symm
  | tick | unroute | lineUpToClose | endReader | keepReading | letGo | findGone | shut =>
    exact .of_calls rfl
  | connect hs hj hu hb => exact other hs (by simp [hj]) rfl
  | shake hs hr => exact work hs trivial rfl
  | establish hs hr => exact work hs trivial rfl
  | miss hs hr hp => exact work hs trivial rfl
  | abandon hs => exact gone rfl
  | refuse hs hj hu hb => exact other hs (by simp [hj]) rfl
  | turnDown hs hj hf =>
    refine .of_setStage rfl fun hs' => .begins hs fun op hx => .inr ⟨_, hs', .inr ?_⟩
    rw [hj] at hx
    cases hx
    exact hf
  | tooLate hs hj hl =>
    exact .of_setStage rfl fun hs' => .begins hs fun op hx => .inr ⟨_, hs', .inl rfl⟩
  | leaveItAt hs hj ho => exact other hs hj rfl
  | waitForReader hs hj hl => exact other hs (by simp [hj]) rfl
  | joined hs hr => exact .of_setStage rfl fun _ => .joins hs hr
  | lineUp hs hl hj => exact .of_setStage rfl fun _ => .begins hs fun _ _ => .inl hl
  | turnAway hs hh hj hr =>
    refine .of_setStage rfl fun hs' => .enters hs fun _ _ => ?_
    rcases register_error hr with hc | rfl
    · exact .inl hc
    · exact .inr hs'
  | pass hs hh hj => exact .of_setStage rfl fun _ => .enters hs fun op hx => absurd hx (hj op)
  | begin he hf hw =>
    exact .of_setStage (calls_setStage he.calls_eq _ _) fun _ =>
      .enters he.stage_eq_lock fun op hj => .inl (he.closed_eq_false hj)
  | write hs hb => exact work hs trivial rfl
  | sent hs hr => exact work hs trivial rfl
  | @fail c₁ _ m waiter e hs he hf =>
    have hd : ((c₁.record (.unsent m e)).yield.forgetAny waiter).calls = c.calls :=
      (calls_forgetAny _ _).trans hs.calls_eq
    obtain ⟨s', hc⟩ : ∃ s', c'.calls = (c.setStage m s').calls := by
      cases hf with
      | ends _ => exact ⟨_, calls_setStage hd _ _⟩
      | closes _ => exact ⟨_, calls_setStage hd _ _⟩
    cases hs with
    | atOnce he =>
      exact .of_setStage hc fun _ => .enters he.stage_eq_lock fun op hj =>
        .inl (he.closed_eq_false hj)
    | later hs => exact work hs trivial hc
  | conclude hs hr =>
    obtain ⟨r', hq⟩ := outline_conclude _ _ _ _
    exact work hs trivial (calls_of_outline hq)
  | dropIdle hs => exact gone rfl
  | dropLine hs => exact gone rfl
  | dropSend hs => exact gone (calls_setStage (calls_forgetAny _ _) _ _)
  | dropWait hs => exact gone rfl
  | dropShutdown hs => exact gone rfl
  | @close t k hm hl =>
    cases t with
    | reader => exact .of_calls rfl
    | call m => exact other hm.1 (by simp [hm.2.1]) rfl
  | @takeHalf t k hs hh hw =>
    cases t with
    | reader => exact .of_calls rfl
    | call m => exact .of_setStage rfl fun hs' => .takes hs hs'
  | rest hs hl hk => exact .of_setStage rfl fun _ => .rests hs hl
  | route hr ha f =>
    exact .of_calls ((Client.calls_eq (core_route c f)).trans
      (calls_of_outline (outline_routed _ f)))

end DocWire.Client
