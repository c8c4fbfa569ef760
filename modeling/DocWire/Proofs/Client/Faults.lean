import Mathlib.Data.Option.Basic
import DocWire.Proofs.Client.Disconnecting
import DocWire.Proofs.Client.Ids
import DocWire.Proofs.Client.Replies
import DocWire.Proofs.Client.Sparing

/-! # Failures and the fate of the connection

An operation fails either because the connection is gone (`Failure.IsTransport`) or for a reason of
its own (`Failure.IsLocal`). The first kind comes up at five places: the operation finds the
connection not open, its request cannot be registered any more, the writing half is not there, a write
fails or takes too long, or its slot is dropped. At each of these closing has begun, or the operation
begins it before it returns. `Course` says where an operation can be on its way, and that closing has
begun once it has failed in this way. An operation that fails for a reason of its own has never closed
anything and has spared what is not its own in all of its turns (`Possible.classified`). -/

namespace DocWire

open DocWire.Correlator (Waiter)

namespace Failure

/-- Whether an operation has failed because the connection is gone. -/
def IsTransport : Failure → Prop
  | .sendFailed _ | .connectionClosed => True
  | _ => False

/-- Whether an operation has failed for a reason of its own. -/
def IsLocal : Failure → Prop
  | .timeout _ | .serverError _ | .notFound _ | .decodeFailed _ | .invalidArgument _
  | .encodeFailed _ => True
  | _ => False

variable {e : Failure}

theorem IsTransport.endsConnection (h : e.IsTransport) : e.endsConnection = true := by
  cases e <;> first | rfl | exact h.elim

theorem IsLocal.endsConnection (h : e.IsLocal) : e.endsConnection = false := by
  cases e <;> first | rfl | exact h.elim

theorem IsAnswer.isLocal (h : e.IsAnswer) : e.IsLocal := by
  cases e <;> trivial

end Failure

/-! ### Where failures come from -/

theorem Operation.isLocal_of_missing? {argument : Argument} {s : String} {e : Failure}
    (h : Operation.missing? argument s = some e) : e.IsLocal := by
  unfold Operation.missing? at h
  split at h
  · cases h
    trivial
  · cases h

theorem Operation.isLocal_of_bodyFault? {body : Option Value} {e : Failure}
    (h : Operation.bodyFault? body = some e) : e.IsLocal := by
  unfold Operation.bodyFault? at h
  split at h
  · cases h
    trivial
  · split at h
    · cases h
    · cases h
      trivial

theorem Operation.isLocal_of_refusal? {op : Operation} {e : Failure} (h : op.refusal? = some e) :
    e.IsLocal := by
  unfold Operation.refusal? at h
  split at h
  · exact isLocal_of_missing? h
  · exact ((Option.orElse_eq_some _ _ _).1 h).elim isLocal_of_missing? fun h =>
      isLocal_of_bodyFault? h.2
  · rcases (Option.orElse_eq_some _ _ _).1 h with h | ⟨-, h⟩
    · exact isLocal_of_missing? h
    · exact ((Option.orElse_eq_some _ _ _).1 h).elim isLocal_of_missing? fun h =>
        isLocal_of_bodyFault? h.2
  · rcases (Option.orElse_eq_some _ _ _).1 h with h | ⟨-, h⟩ <;> exact isLocal_of_missing? h
  · exact isLocal_of_missing? h
  · cases h
  · cases h

/-- A request is not registered after closing, or under an id that is under way. -/
theorem Correlator.eq_of_register_error {κ : Type} {r : Correlator κ} {id : String} {sub : Option κ}
    {e : Failure} (h : r.register id sub = .error e) :
    r.closed = true ∧ e = .connectionClosed ∨ e.IsLocal := by
  unfold Correlator.register at h
  split at h
  next hc => exact .inl ⟨hc, (Except.error.inj h).symm⟩
  next =>
    split at h
    · cases h
      exact .inr trivial
    · cases h

namespace Client

variable {c c' c₁ d : Client} {config : Config} {n m : Nat} {w : Waiter} {op : Operation}
  {e : Failure}

theorem IsSendFault.classes (h : IsSendFault e) : e.IsTransport ∨ e.IsLocal := by
  rcases h with ⟨fault, rfl⟩ | rfl | ⟨fault, rfl⟩
  · exact .inl trivial
  · exact .inl trivial
  · exact .inr trivial

/-! ### The registry is closed with the connection -/

theorem Sends.closed_eq {waiter : Option Waiter} (hs : c.Sends n waiter c₁) :
    c₁.correlator.closed = c.correlator.closed := by
  cases hs with
  | later hs => rfl
  | atOnce he =>
    cases he with
    | farewell => rfl
    | request _ _ _ hr =>
      obtain ⟨-, -, -, rfl⟩ := Correlator.register_ok hr
      rfl

theorem closed_forgetAny (c : Client) (waiter : Option Waiter) :
    (c.forgetAny waiter).correlator.closed = c.correlator.closed := by
  cases waiter with
  | none => rfl
  | some w => exact Correlator.closed_leave _ _

/-- The registry is closed when closing begins, and at no other time. -/
theorem Move.closed (hm : c.Move c') :
    c'.correlator.closed = c.correlator.closed ∨ c'.life = .closing := by
  cases hm.advances with
  | aside ha => exact .inl (congrArg Correlator.closed ha.correlator)
  | begin he hs => exact .inl (Sends.atOnce he).closed_eq
  | sent hs => exact .inl rfl
  | fail hs he hf =>
    cases hf with
    | ends _ => exact .inl ((closed_forgetAny _ _).trans hs.closed_eq)
    | closes _ => exact .inr rfl
  | @conclude n due w r hs hr =>
    have hk : (c.conclude n w r).correlator = c.correlator.leave w := by
      unfold Client.conclude
      cases r with
      | error e => rfl
      | ok reply =>
        dsimp only
        split <;> rfl
    exact .inl ((congrArg Correlator.closed hk).trans (Correlator.closed_leave _ _))
  | drop hn hp ha =>
    exact .inl ((congrArg Correlator.closed ha.correlator).trans (closed_forgetAny _ _))
  | breakOff ha => exact .inr rfl
  | @route c' f hq =>
    refine .inl ((congrArg Correlator.closed (correlator_eq hq)).symm.trans ?_)
    unfold routed
    split
    · split
      · exact Correlator.closed_fulfill _ _ _
      · rfl
    · unfold dispatch
      split <;> rfl
    · rfl

/-! ### The course of an operation -/

/-- Where an operation can be that has been begun while there was a connection: if it has failed
because the connection is gone, closing has begun. -/
inductive Course (past : Prop) : Stage → Prop
  | fresh : Course past .fresh
  | lock : Course past .lock
  | send (s : Sending) : Course past (.send s)
  | await (w : Waiter) (due : Nat) : Course past (.await w due)
  | dropped : Course past .dropped
  | succeeded (o : Outcome) : Course past (.done (.ok o))
  | failed {e : Failure} (he : e.IsLocal) : Course past (.done (.error e))
  | broken {e : Failure} (he : e.IsTransport) (hp : past) : Course past (.done (.error e))
  | closing {k : AfterClose} {s : Stage} (hs : s = .closeLock k ∨ s = .closeShutdown k)
      (he : ∃ e : Failure, e.IsTransport ∧ k = .finish (.error e)) : Course past s

namespace Course

variable {past past' : Prop} {s : Stage}

theorem mono (h : Course past s) (hp : past → past') : Course past' s := by
  cases h with
  | fresh => exact .fresh
  | lock => exact .lock
  | send s => exact .send s
  | await w due => exact .await w due
  | dropped => exact .dropped
  | succeeded o => exact .succeeded o
  | failed he => exact .failed he
  | broken he hx => exact .broken he (hp hx)
  | closing hs he => exact .closing hs he

/-- An operation that closes the connection reports that it is gone. -/
theorem of_closing {k : AfterClose} (h : Course past s)
    (hs : s = .closeLock k ∨ s = .closeShutdown k) :
    ∃ e : Failure, e.IsTransport ∧ k = .finish (.error e) := by
  cases h with
  | closing hs' he =>
    obtain ⟨e, ht, rfl⟩ := he
    rcases hs with rfl | rfl <;> rcases hs' with h | h <;> cases h <;> exact ⟨e, ht, rfl⟩
  | _ => rcases hs with h | h <;> cases h

/-- The sending of an operation fails: closing has begun, or the operation begins it. -/
theorem fail {waiter : Option Waiter} (hs : c.Sends n waiter c₁) (he : IsSendFault e)
    (hf : c.Fails n e ((c₁.record (.unsent n e)).yield.forgetAny waiter) c')
    (hj : c.job n = .operation op) (hu : c.life ≠ .unconnected) :
    Course c'.life.IsPast (c'.stage n) := by
  have hc := (calls_forgetAny (c₁.record (.unsent n e)).yield waiter).trans hs.calls_eq
  have hn : n < ((c₁.record (.unsent n e)).yield.forgetAny waiter).calls.length := by
    rw [hc]
    exact hs.lt_length
  have hr : failedOutcome (c.job n) e = .error e := by rw [hj]; rfl
  cases hf with
  | ends hq =>
    rw [stage_setStage_self hn, hr]
    rcases he.classes with ht | hx
    · refine .broken ht ?_
      have hl : (((c₁.record (.unsent n e)).yield.forgetAny waiter).setStage n
          (.done (.error e))).life = c.life := (life_forgetAny _ _).trans hs.life_eq
      rw [hl]
      refine Life.isPast_iff.2 ⟨hu, hq.resolve_right fun hx => ?_⟩
      exact nomatch ht.endsConnection.symm.trans hx.1
    · exact .failed hx
  | closes hl hy =>
    refine .closing (k := .finish (failedOutcome (c.job n) e)) (.inl ?_) ⟨e, ?_, by rw [hr]⟩
    · exact stage_setStage_self hn _
    · exact he.classes.resolve_right fun hx => nomatch hx.endsConnection.symm.trans hy

/-- The wait of an operation ends: if its slot is gone, closing has begun. -/
theorem conclude {due : Nat} {r : Except Failure Reply} (hl : Lawful c) (ht : Told c)
    (hs : c.stage n = .await w due)
    (hr : c.correlator.outcome? w (due ≤ c.now) c.config.requestTimeout = some r) :
    Course c.life.IsPast ((c.conclude n w r).stage n) := by
  have hn : n < c.calls.length := lt_of_stage_ne_dropped (by simp [hs])
  have hstage : ∀ {d : Client} {s}, d.calls = c.calls → (d.setStage n s).stage n = s := fun hd =>
    stage_setStage_self (hd ▸ hn) _
  have hb := (hl.correlated.waits (n := n) (w := w) (by rw [phase_of_stage hs nofun]; rfl)).2
  rcases Correlator.outcome?_eq_some hr with ⟨reply, -, rfl⟩ | ⟨hm, rfl⟩ | ⟨-, -, rfl⟩
  · have ho : (c.conclude n w (.ok reply)).stage n =
        .done (replyOutcome (c.job n) w.id reply) := by
      unfold Client.conclude
      dsimp only
      split
      · exact hstage (Correlated.calls_reject _ w.id)
      · exact hstage rfl
    rw [ho]
    cases hx : replyOutcome (c.job n) w.id reply with
    | error e => exact .failed (isAnswer_of_replyOutcome hx).isLocal
    | ok o => exact .succeeded o
  · refine Eq.mpr (congrArg (Course _) (hstage (d := c.forget w) rfl)) (.broken trivial ?_)
    by_contra hp
    rcases hm with hm | hm
    · rw [hm] at hb
      cases hb with
      | orphaned _ _ _ hc => exact ht.opened hp hc
    · rw [hm] at hb
      cases hb
  · exact Eq.mpr (congrArg (Course _) (hstage (d := c.forget w) rfl)) (.failed trivial)

/-- **What an operation goes through.** -/
theorem move (hm : c.Move c') (hl : Lawful c) (ht : Told c)
    (hk : c.correlator.closed = true → c.life.IsPast) (hu : c.life ≠ .unconnected)
    (hj : c.job n = .operation op) (h : Course c.life.IsPast (c.stage n)) :
    Course c'.life.IsPast (c'.stage n) := by
  have hpast : c.life.IsPast → c'.life.IsPast := hl.isPast_move hm
  have still : c'.stage n = c.stage n → Course c'.life.IsPast (c'.stage n) := fun he =>
    he ▸ h.mono hpast
  have other : ∀ {m s}, c'.calls = (c.setStage m s).calls →
      (m = n → Course c'.life.IsPast (c'.stage n)) → Course c'.life.IsPast (c'.stage n) := by
    intro m s hc hx
    by_cases hi : m = n
    · exact hx hi
    · exact still ((stage_congr hc n).trans (by rw [stage_setStage, if_neg fun h => hi h.1.symm]))
  have goes : ∀ {m s}, c'.calls = (c.setStage m s).calls →
      (m = n → Course c'.life.IsPast s) → Course c'.life.IsPast (c'.stage n) := by
    intro m s hc hx
    refine other hc fun hi => ?_
    rw [stage_congr hc, stage_setStage]
    split
    · exact hx hi
    · exact h.mono hpast
  -- a call that is no operation, or at a stage at which no operation can be
  have alien : ∀ {m s}, c'.calls = (c.setStage m s).calls →
      (∀ op, c.job m ≠ .operation op) → Course c'.life.IsPast (c'.stage n) := fun hc hx =>
    other hc fun hi => absurd hj (hi ▸ hx op)
  have never : ∀ {m s s₀}, c.stage m = s₀ → (∀ past, ¬ Course past s₀) →
      c'.calls = (c.setStage m s).calls → Course c'.life.IsPast (c'.stage n) := fun hs hx hc =>
    other hc fun hi => absurd h (by rw [← hi, hs]; exact hx _)
  have shaken : ∀ {e due} past, ¬ Course past (.handshake e due) := by
    intro e due past hx
    cases hx with
    | closing hs => rcases hs with hs | hs <;> cases hs
  have joined : ∀ past, ¬ Course past .join := by
    intro past hx
    cases hx with
    | closing hs => rcases hs with hs | hs <;> cases hs
  cases hm with
  | quiet hq => exact still (stage_eq hq n).symm
  | tick | unroute | lineUpToClose | endReader | keepReading | letGo | findGone | shut =>
    exact still rfl
  | connect hs hj' hu hb => exact alien rfl (by simp [hj'])
  | refuse hs hj' hu hb => exact alien rfl (by simp [hj'])
  | shake hs hr => exact never hs shaken rfl
  | establish hs hr => exact never hs shaken rfl
  | miss hs hr hp => exact never hs shaken rfl
  | abandon hs => exact never hs shaken rfl
  | turnDown hs hj' hf => exact goes rfl fun _ => .failed (Operation.isLocal_of_refusal? hf)
  | tooLate hs hj' hc => exact goes rfl fun _ => .broken trivial (Life.isPast_iff.2 ⟨hu, hc⟩)
  | leaveItAt hs hj' ho => exact alien rfl hj'
  | waitForReader hs hj' hc => exact alien rfl (by simp [hj'])
  | joined hs hr => exact never hs joined rfl
  | lineUp hs hc hj' => exact goes rfl fun _ => .lock
  | turnAway hs hh hj' hr =>
    refine goes rfl fun _ => ?_
    rcases Correlator.eq_of_register_error hr with ⟨hc, rfl⟩ | hx
    · exact .broken trivial (hk hc)
    · exact .failed hx
  | pass hs hh hj' => exact alien rfl hj'
  | begin he hf hw => exact goes (calls_setStage he.calls_eq _ _) fun _ => .send _
  | write hs hb => exact goes rfl fun _ => .send _
  | @sent m s hs hr =>
    refine goes rfl fun _ => ?_
    cases s.waiter with
    | none => exact .succeeded _
    | some w => exact .await w _
  | @fail c₁ _ m waiter e hs he hf =>
    have hd : ((c₁.record (.unsent m e)).yield.forgetAny waiter).calls = c.calls :=
      (calls_forgetAny _ _).trans hs.calls_eq
    obtain ⟨s', hc⟩ : ∃ s', c'.calls = (c.setStage m s').calls := by
      cases hf with
      | ends _ => exact ⟨_, calls_setStage hd _ _⟩
      | closes _ => exact ⟨_, calls_setStage hd _ _⟩
    refine other hc fun hi => ?_
    subst hi
    exact fail hs he hf hj hu
  | @conclude m due w r hs hr =>
    obtain ⟨r', hq⟩ := outline_conclude c m w r
    have hlife : (c.conclude m w r).life = c.life := (life_of_outline hq).trans rfl
    refine other (calls_of_outline hq) fun hi => ?_
    subst hi
    rw [hlife]
    exact conclude hl ht hs hr
  | dropIdle hs => exact goes rfl fun _ => .dropped
  | dropLine hs => exact goes rfl fun _ => .dropped
  | dropSend hs => exact goes (calls_setStage (calls_forgetAny _ _) _ _) fun _ => .dropped
  | dropWait hs => exact goes rfl fun _ => .dropped
  | dropShutdown hs => exact goes rfl fun _ => .dropped
  | @close t k hm hc =>
    cases t with
    | reader => exact still rfl
    | call m => exact alien (m := m) rfl (by simp [hm.2.1])
  | @takeHalf t k hs hh hw =>
    cases t with
    | reader => exact still rfl
    | call m =>
      have hs : c.stage m = .closeLock k := hs
      refine goes (m := m) rfl fun hi => ?_
      exact .closing (.inr rfl) (h.of_closing (k := k) (.inl (hi ▸ hs)))
  | @rest m k s hs hc hk' =>
    refine goes (m := m) rfl fun hi => ?_
    subst hi
    obtain ⟨e, he, rfl⟩ := h.of_closing hs
    obtain rfl : s = .done (.error e) := hk'
    exact .broken he (.inr hc)
  | route hr ha f =>
    exact still (stage_congr ((Client.calls_eq (core_route c f)).trans
      (calls_of_outline (outline_routed _ f))) n)

end Course

/-! ### Over a run -/

theorem Onward.job_eq (h' : c.Onward c') (hn : n < c.calls.length) : c'.job n = c.job n := by
  refine (h'.induct (P := fun d => n < d.calls.length ∧ d.job n = c.job n)
    (fun hm hx => ⟨hm.length_calls ▸ hx.1, (hm.job_eq n).trans hx.2⟩) (fun job hx => ⟨?_, ?_⟩)
    ⟨hn, rfl⟩).2
  · rw [addCall, List.length_append]
    exact Nat.lt_add_right _ hx.1
  · exact ((Aside.addCall _ job).job n (by simp [hx.1])).trans hx.2

theorem Possible.isPast_of_closed (h : Possible config c) (hk : c.correlator.closed = true) :
    c.life.IsPast := by
  refine Onward.induct_lawful (P := fun d => d.correlator.closed = true → d.life.IsPast)
    (fun hl hm hx hk => ?_) (fun _ _ hx => hx) h (.initial config) nofun hk
  rcases hm.closed with he | he
  · exact hl.isPast_move hm (hx (he ▸ hk))
  · exact .inl he

theorem Course.addCall {d : Client} (job : Job)
    (h : ∀ op, d.job n = .operation op → Course d.life.IsPast (d.stage n)) :
    ∀ op, (d.addCall job).job n = .operation op → Course d.life.IsPast ((d.addCall job).stage n) := by
  intro op hj
  rcases Nat.lt_or_ge n d.calls.length with hn | hn
  · rw [stage_addCall_of_lt hn]
    exact h op (((Aside.addCall d job).job n (by simp [hn])).symm.trans hj)
  · rcases stage_addCall d job n with hs | hs
    · rw [hs, stage, List.getElem?_eq_none hn]
      exact .dropped
    · rw [hs]
      exact .fresh

/-- **The course of an operation over a run.** -/
theorem Onward.course (h' : c.Onward c') (h : Possible config c) (hu : c.life ≠ .unconnected)
    (hn : c.calls.length ≤ n ∨ c.stage n = .fresh) :
    c'.life ≠ .unconnected ∧
      ∀ op, c'.job n = .operation op → Course c'.life.IsPast (c'.stage n) := by
  refine (h'.induct_lawful (P := fun d => (Told d ∧ (d.correlator.closed = true → d.life.IsPast)) ∧
    d.life ≠ .unconnected ∧ ∀ op, d.job n = .operation op → Course d.life.IsPast (d.stage n))
    (fun hl hm ⟨⟨ht, hk⟩, hu, hx⟩ => ⟨⟨.move hl hm ht, fun hk' => ?_⟩,
      (hl.closes.ages hl.guarded hm).ne_unconnected hu, fun op hj => ?_⟩)
    (fun job _ ⟨⟨ht, hk⟩, hu, hx⟩ => ⟨⟨⟨ht.opened, ht.closed⟩, hk⟩, hu, Course.addCall job hx⟩)
    h.lawful ⟨⟨h.told, h.isPast_of_closed⟩, hu, fun op _ => ?_⟩).2
  · rcases hm.closed with he | he
    · exact hl.isPast_move hm (hk (he ▸ hk'))
    · exact .inl he
  · rw [hm.job_eq n] at hj
    exact (hx op hj).move hm hl ht hk hu hj
  · rcases hn with hn | hn
    · rw [stage, List.getElem?_eq_none hn]
      exact .dropped
    · rw [hn]
      exact .fresh

/-! ### What a failure tells -/

/-- A call can come to nothing but a failure. -/
structure Doomed (c : Client) (n : Nat) : Prop where
  ended : ∀ r, c.stage n = .done r → ∃ e, r = .error e
  begun : c.stage n = .fresh → ∃ e, (c.turn (.call n)).stage n = .done (.error e)

/-- A turn of an operation has begun nothing to close the connection, has not lost the writing half,
and has left the slots and routes of all ids but its own as they were. -/
structure Harmless (n : Nat) (c c' : Client) : Prop where
  life : c'.life = c.life
  closings : closings c'.journal = closings c.journal
  half : c'.write.half = c.write.half
  slots : ∀ id, .registered n id ∉ c'.journal →
    c'.correlator.slots.lookup id = c.correlator.slots.lookup id
  routes : ∀ id, .registered n id ∉ c'.journal → c'.routes.get? id = c.routes.get? id

theorem Spares.harmless (h : Spares n c c') (hj : ∀ id, c'.job n ≠ .unsubscribe (some id)) :
    Harmless n c c' := by
  have ho : ∀ {id}, .registered n id ∉ c'.journal → ¬ c'.Owns n id := fun hx ho =>
    ho.elim hx (hj _)
  obtain ⟨l, hl, hc⟩ := h.journal
  refine ⟨life_of_keel h.keel, ?_, half_of_keel h.keel, fun id hx => h.slots id (ho hx),
    fun id hx => h.routes id (ho hx)⟩
  rw [hl, closings_append, closings_eq_zero.2 fun hm => hc _ hm trivial, Nat.add_zero]

/-- What the failure of an operation tells. If it ends the connection, closing has begun by the time
when the operation has ended, and every operation that is begun later fails. If it does not, no turn
of the operation has done any harm. -/
structure Classified (c : Client) (n : Nat) (c' : Client) (e : Failure) : Prop where
  transport : e.endsConnection = true → e.IsTransport ∧
    (c'.life = .closing ∨ c'.life = .closed) ∧
    ∀ c'', c'.Onward c'' → ∀ m op, (c'.calls.length ≤ m ∨ c'.stage m = .fresh) →
      c''.job m = .operation op → c''.Doomed m
  others : e.endsConnection = false → e.IsLocal ∧
    ∀ d, c.Onward d → (d.turn (.call n)).Onward c' → Harmless n d (d.turn (.call n))

theorem turn_operation (hs : c.stage n = .fresh) (hj : c.job n = .operation op) :
    c.turn (.call n) =
      ({ c with ready := c.ready.erase (.call n) } : Client).startOperation n op := by
  have hs' : ({ c with ready := c.ready.erase (.call n) } : Client).stage n = .fresh := hs
  have hj' : ({ c with ready := c.ready.erase (.call n) } : Client).job n = .operation op := hj
  change ({ c with ready := c.ready.erase (.call n) } : Client).runCall n = _
  unfold runCall
  rw [hs', hj']

/-- An operation that begins after closing fails at once. -/
theorem exists_stage_turn (hs : c.stage n = .fresh) (hj : c.job n = .operation op)
    (hl : c.life ≠ .connected) : ∃ e, (c.turn (.call n)).stage n = .done (.error e) := by
  have hn : n < c.calls.length := lt_of_stage_ne_dropped (by simp [hs])
  have hl' : ({ c with ready := c.ready.erase (.call n) } : Client).isConnected ≠ true := fun hx =>
    hl ((isConnected_iff _).1 hx)
  rw [turn_operation hs hj]
  unfold startOperation
  split
  next e _ => exact ⟨e, stage_setStage_self hn _⟩
  next =>
    rw [if_neg hl']
    exact ⟨_, stage_setStage_self hn _⟩

/-- Once closing has begun, operations that begin come to nothing. -/
theorem Lawful.fruitless (hl : Lawful c) (hp : c.life.IsPast) (h' : c.Onward c')
    (hm : c.calls.length ≤ m ∨ c.stage m = .fresh) (hj : c'.job m = .operation op) :
    c'.Doomed m := by
  refine ⟨fun r hs => ?_, fun hs =>
    exists_stage_turn hs hj (h'.isPast hl hp).ne_connected⟩
  have hb := h'.barred hl hp (fun op _ => .of_unregistered (hm.imp_right .inl) op) op hj
  rw [hs] at hb
  cases hb with
  | refused he => exact ⟨_, rfl⟩

/-- **The failures of operations match the fate of the connection.** -/
theorem Possible.classified (h : Possible config c) (hu : c.life ≠ .unconnected)
    (hn : c.calls.length ≤ n ∨ c.stage n = .fresh) (h' : c.Onward c')
    (hj : c'.job n = .operation op) (hs : c'.stage n = .done (.error e)) :
    c.Classified n c' e := by
  have hl' := h.lawful.onward h'
  have hx := (h'.course h hu hn).2 op hj
  rw [hs] at hx
  refine ⟨fun he => ?_, fun he => ?_⟩
  · cases hx with
    | failed hx => exact nomatch hx.endsConnection.symm.trans he
    | broken ht hp =>
      exact ⟨ht, hp, fun c'' h'' m op hm hj => hl'.fruitless hp h'' hm hj⟩
    | closing hs => rcases hs with hs | hs <;> cases hs
  · have hloc : e.IsLocal := by
      cases hx with
      | failed hx => exact hx
      | broken ht hp => exact nomatch ht.endsConnection.symm.trans he
      | closing hs => rcases hs with hs | hs <;> cases hs
    refine ⟨hloc, fun d hd hd' => ?_⟩
    have settled : ∀ {b : Client} {e'}, b.Onward c' → (b.phase n).Settles (.error e') → e = e' := by
      intro b e' hb hp
      have hp' := hb.settles hp
      rw [phase_of_stage hs nofun] at hp'
      cases hp'
      rfl
    have hld := h.lawful.onward hd
    obtain ⟨hud, hcourse⟩ := hd.course h hu hn
    have hdc : d.Onward c' := ((Onward.refl d).turn _).trans hd'
    have hop : n < d.calls.length → d.job n = .operation op := fun hlt =>
      (hdc.job_eq hlt).symm.trans hj
    have hclosing : ¬ IsClosingStage (d.stage n) := by
      intro hk
      obtain ⟨k, hk⟩ : ∃ k, d.stage n = .closeLock k ∨ d.stage n = .closeShutdown k := by
        cases hst : d.stage n <;> rw [hst] at hk <;>
          first | exact ⟨_, .inl rfl⟩ | exact ⟨_, .inr rfl⟩ | exact hk.elim
      have hne : d.stage n ≠ .dropped := by rcases hk with hk | hk <;> simp [hk]
      obtain ⟨e', ht, rfl⟩ := (hcourse op (hop (lt_of_stage_ne_dropped hne))).of_closing hk
      have hp : (d.phase n).Settles (.error e') := by
        rcases hk with hk | hk <;> rw [phase_of_stage hk nofun] <;> rfl
      exact nomatch (settled hdc hp ▸ ht.endsConnection).symm.trans he
    have hfresh : d.stage n = .fresh → d.job n ≠ .disconnect := fun hf => by
      simp [hop (lt_of_stage_ne_dropped (by simp [hf]))]
    rcases hld.fares_turn (hld.closes.begun hud).1 hfresh hclosing with hsp | ⟨e', he', -, hp⟩
    · refine hsp.harmless fun id hx => ?_
      rw [hsp.job] at hx
      rcases Nat.lt_or_ge n d.calls.length with hlt | hge
      · cases (hop hlt).symm.trans hx
      · simp [Client.job, List.getElem?_eq_none hge] at hx
    · have hlt : n < (d.turn (.call n)).calls.length := by
        by_contra hge
        rw [phase_eq_idle (List.getElem?_eq_none (Nat.le_of_not_lt hge))] at hp
        exact hp
      rw [← hd'.job_eq hlt, hj] at hp
      exact nomatch (settled hd' hp ▸ he').symm.trans he

theorem stage_eq_failed (h : (match c.stage n with
    | .done (.error e') => decide (e' = e)
    | _ => false) = true) : c.stage n = .done (.error e) := by
  split at h
  next hs => rw [hs, of_decide_eq_true h]
  next => cases h

theorem job_eq_ping (h : (match c.job n with
    | .operation .ping => true
    | _ => false) = true) : c.job n = .operation .ping := by
  split at h
  next hj => exact hj
  next => cases h

/-- A client whose ping has been sent and is not answered in time. -/
def unheeded : Client := calling.perform (.advance 60000)

/-- A client that cannot get the bytes of its ping to the peer. -/
def unheard : Client :=
  (following.perform (.change ⟨none, none, none, some (.fails "reset"), none⟩)).perform
    (.start (.operation .ping))

theorem classified_following : following.life = .connected ∧ following.calls.length = 4 ∧
    unheeded.stage 4 = .done (.error (.timeout Config.default.requestTimeout)) ∧
    following.Classified 4 unheeded (.timeout Config.default.requestTimeout) ∧
    unheard.stage 4 = .done (.error (.sendFailed (.reported "reset"))) ∧
    following.Classified 4 unheard (.sendFailed (.reported "reset")) := by
  have h : Possible .default following := (reachable_performAll _ _).possible
  have hl : following.life = .connected := by decide +kernel
  have hu : following.life ≠ .unconnected := by rw [hl]; nofun
  have hn : following.calls.length = 4 := by decide +kernel
  have hs : unheeded.stage 4 = .done (.error (.timeout Config.default.requestTimeout)) :=
    stage_eq_failed (by decide +kernel)
  have hs' : unheard.stage 4 = .done (.error (.sendFailed (.reported "reset"))) :=
    stage_eq_failed (by decide +kernel)
  have hg : following.Onward unheeded :=
    ((later_perform following _).trans (later_perform calling _)).onward
  have hg' : following.Onward unheard :=
    ((later_perform following _).trans (later_perform _ _)).onward
  exact ⟨hl, hn, hs,
    h.classified hu (.inl (Nat.le_of_eq hn)) hg (job_eq_ping (by decide +kernel)) hs, hs',
    h.classified hu (.inl (Nat.le_of_eq hn)) hg' (job_eq_ping (by decide +kernel)) hs'⟩

end Client

end DocWire
