import DocWire.Proofs.Client.Connecting
import DocWire.Proofs.Client.Refusing

/-! # The size of requests

A call makes its request as soon as it has the write path (`turn_eq`). If the frame is within the
limit, the call may still fail, but not for its size (`Move.passed`); if it is above, the call is
refused in that very turn. So, while the connection stays open, an operation fails for its size
exactly if its frame is too large (`Onward.refused_iff`). What operations leave behind that are
refused, for their arguments or for their size, is `Possible.refuses`. -/

namespace DocWire

open DocWire.Correlator (Waiter)

/-- Where an operation can be whose frame is within the limit. -/
def Phase.Passed : Phase → Prop
  | .idle => False
  | .failing r | .ended r => ∀ fault, r ≠ .error (.invalidArgument fault)
  | _ => True

theorem Phase.Passed.fades {p p' : Phase} (h : p.Passed) (hf : p.Fades p') : p'.Passed := by
  cases hf with
  | refl => exact h
  | ended r => exact h.elim
  | dropped => exact h.elim
  | closed r => exact h
  | given r => trivial

namespace Client

variable {b c c' c₁ d : Client} {config : Config} {n m count : Nat} {op : Operation} {e : Failure}
  {waiter : Option Waiter} {id : String}

/-! ### In line for the write path -/

/-- The client when a call whose turn it is stands in line for the write path, or has it. -/
def inLine (c : Client) (n : Nat) : Client :=
  match c.stage n with
  | .fresh =>
    { c with
      ready := c.ready.erase (.call n)
      write := c.write.acquire (.call n) }.setStage n .lock
  | _ => { c with ready := c.ready.erase (.call n) }

theorem inLine_of_fresh (hs : c.stage n = .fresh) : c.inLine n =
    { c with
      ready := c.ready.erase (.call n)
      write := c.write.acquire (.call n) }.setStage n .lock := by
  rw [inLine, hs]

theorem inLine_of_lock (hs : c.stage n = .lock) :
    c.inLine n = { c with ready := c.ready.erase (.call n) } := by
  rw [inLine, hs]

theorem job_inLine (c : Client) (n : Nat) : (c.inLine n).job n = c.job n := by
  unfold inLine
  split
  · exact job_setStage _ n n _
  · rfl

theorem stage_inLine (hs : c.stage n = .fresh ∨ c.stage n = .lock) :
    (c.inLine n).stage n = .lock := by
  rcases hs with hs | hs
  · have hn : n < c.calls.length := lt_of_stage_ne_dropped (by simp [hs])
    rw [inLine_of_fresh hs]
    exact stage_setStage_self hn _
  · rw [inLine_of_lock hs]
    exact hs

theorem useWritePath_of_operation (hj : c.job n = .operation op) :
    c.useWritePath n = c.request n op := by
  unfold useWritePath
  rw [hj]

/-- **A call makes its request as soon as it has the write path.** -/
theorem turn_eq (hl : c.life = .connected) (hj : c.job n = .operation op)
    (hr : op.refusal? = none) (hs : c.stage n = .fresh ∨ c.stage n = .lock) :
    c.turn (.call n) =
      if (c.inLine n).holds (.call n) then (c.inLine n).request n op else c.inLine n := by
  rw [← useWritePath_of_operation ((job_inLine c n).trans hj)]
  rcases hs with hs | hs
  · have hc : ({ c with ready := c.ready.erase (.call n) } : Client).isConnected = true :=
      (isConnected_iff _).2 hl
    rw [turn_operation hs hj, inLine_of_fresh hs, startOperation, hr, hc]
    rfl
  · have hs' : ({ c with ready := c.ready.erase (.call n) } : Client).stage n = .lock := hs
    change ({ c with ready := c.ready.erase (.call n) } : Client).runCall n = _
    rw [inLine_of_lock hs, runCall, hs']

theorem moves_inLine (hl : c.life = .connected) (hj : c.job n = .operation op) :
    c.Moves (c.inLine n) := by
  have hq : c.Moves { c with ready := c.ready.erase (.call n) } := .quiet rfl
  unfold inLine
  split
  next hs => exact hq.trans (.one (.lineUp hs hl (.inl ⟨op, hj⟩)) rfl)
  next => exact hq

/-- Standing in line changes the call and the line only. -/
theorem exists_inLine (c : Client) (n : Nat) : ∃ calls write l,
    c.inLine n = { c with calls := calls, write := write, ready := l } ∧
      write.nextId = c.write.nextId ∧ write.half = c.write.half ∧
      ∀ m, m ≠ n → ({ c with calls := calls } : Client).stage m = c.stage m := by
  unfold inLine
  split
  · refine ⟨(c.setStage n .lock).calls, _, _, rfl, WritePath.nextId_acquire _ _,
      WritePath.half_acquire _ _, fun m hm => ?_⟩
    change (c.setStage n .lock).stage m = _
    rw [stage_setStage, if_neg fun h => hm h.1]
  · exact ⟨_, _, _, rfl, rfl, rfl, fun _ _ => rfl⟩

theorem correlator_inLine (c : Client) (n : Nat) : (c.inLine n).correlator = c.correlator := by
  obtain ⟨calls, write, l, he, -⟩ := c.exists_inLine n
  rw [he]

theorem life_inLine (c : Client) (n : Nat) : (c.inLine n).life = c.life := by
  obtain ⟨calls, write, l, he, -⟩ := c.exists_inLine n
  rw [he]

theorem Alert.inLine (h : c.Alert count none) (hs : c.stage n = .fresh ∨ c.stage n = .lock) :
    (c.inLine n).Alert count none := by
  have he : ({ c with ready := c.ready.erase (.call n) } : Client).Alert count none := by
    refine ⟨h.toOrderly.erase _, fun m w due _ hm hd => ?_⟩
    refine (List.mem_erase_of_ne fun hx => ?_).2 (h.woken m w due nofun hm hd)
    obtain rfl : m = n := Task.call.inj hx
    have hm : c.stage m = .await w due := hm
    rw [hm] at hs
    rcases hs with hs | hs <;> cases hs
  rcases hs with hs | hs
  · have hn : n < count := h.length ▸ lt_of_stage_ne_dropped (by simp [hs])
    rw [inLine_of_fresh hs]
    exact (he.acquire (t := .call n) hn).setStage nofun
  · rw [inLine_of_lock hs]
    exact he

/-- A call that has the write path while the connection is open is about to make a request. -/
theorem Possible.entering (h : Possible config c) (hl : c.life = .connected)
    (hj : c.job n = .operation op) (hs : c.stage n = .fresh ∨ c.stage n = .lock)
    (hh : (c.inLine n).holds (.call n) = true) : (c.inLine n).Entering n op where
  lawful := (moves_inLine hl hj).induct Lawful.move h.lawful
  keyed := correlator_inLine c n ▸ h.keyed
  alert := by
    have ha := h.alert.inLine hs
    exact ha.length.symm ▸ ha
  stage := stage_inLine hs
  holds := hh
  job := (job_inLine c n).trans hj
  opened := by
    rw [correlator_inLine]
    exact Bool.eq_false_iff.2 fun hk => (h.isPast_of_closed hk).ne_connected hl

/-! ### Frames within the limit -/

/-- The wait for a reply does not end with an invalid argument. -/
theorem passed_conclude {due : Nat} {w : Waiter} {r : Except Failure Reply}
    (hs : c.stage n = .await w due)
    (hr : c.correlator.outcome? w (due ≤ c.now) c.config.requestTimeout = some r) :
    ((c.conclude n w r).phase n).Passed := by
  have hn : n < c.calls.length := lt_of_stage_ne_dropped (by simp [hs])
  have hphase : ∀ {d : Client} {s}, d.calls = c.calls → (d.setStage n s).phase n = s.phase :=
    fun hd => phase_setStage_self (hd ▸ hn) _
  have error : ∀ e : Failure, (∀ fault, e ≠ .invalidArgument fault) →
      ((c.conclude n w (.error e)).phase n).Passed := fun e he => by
    rw [show (c.conclude n w (.error e)).phase n = .ended (.error e) from
      hphase (d := c.forget w) rfl]
    exact fun fault hf => he fault (Except.error.inj hf)
  rcases Correlator.outcome?_eq_some hr with ⟨reply, -, rfl⟩ | ⟨-, rfl⟩ | ⟨-, -, rfl⟩
  · have ho : (c.conclude n w (.ok reply)).phase n =
        .ended (replyOutcome (c.job n) w.id reply) := by
      unfold Client.conclude
      dsimp only
      split
      · exact hphase (Correlated.calls_reject _ w.id)
      · exact hphase rfl
    rw [ho]
    exact fun fault hf => isAnswer_of_replyOutcome hf
  · exact error _ nofun
  · exact error _ nofun

/-- A failure to send that ends the connection, or that comes late, comes with the closing. -/
theorem Fails.isPast (hf : c.Fails n e ((c₁.record (.unsent n e)).yield.forgetAny waiter) c')
    (hs : c.Sends n waiter c₁) (hu : c.life ≠ .unconnected)
    (hx : ¬ (e.endsConnection = false ∧ c.stage n = .lock)) : c'.life.IsPast := by
  cases hf with
  | closes _ => exact .inl rfl
  | ends hq =>
    have hl : (((c₁.record (.unsent n e)).yield.forgetAny waiter).setStage n
        (.done (failedOutcome (c.job n) e))).life = c.life :=
      (life_forgetAny _ _).trans hs.life_eq
    rw [hl]
    exact Life.isPast_iff.2 ⟨hu, hq.resolve_right hx⟩

/-- **An operation whose frame is within the limit does not fail for its size.** -/
theorem Move.passed (hm : c.Move c') (hl : Lawful c) (hu : c.life ≠ .unconnected)
    (h : c.life.IsPast ∨ (c.phase n).Passed) : c'.life.IsPast ∨ (c'.phase n).Passed := by
  rcases h with hp | h
  · exact .inl (hl.isPast_move hm hp)
  have hne : ∀ {m s}, c.stage m = s → s ≠ .dropped → ¬ s.phase.Passed → n ≠ m := by
    rintro m s hs hd hx rfl
    rw [phase_of_stage hs hd] at h
    exact hx h
  have same : c'.phase n = c.phase n → c'.life.IsPast ∨ (c'.phase n).Passed := fun he =>
    .inr (he ▸ h)
  cases hm.advances with
  | aside ha => exact .inr (h.fades (ha.phase n))
  | begin he hs =>
    apply same
    rw [phase_setStage_of_ne (hne he.stage_eq_lock nofun id), phase_congr he.calls_eq]
  | @sent m s hs =>
    by_cases hn : n = m
    · subst hn
      have hn : n < c.calls.length := lt_of_stage_ne_dropped (by simp [hs])
      rw [phase_setStage_self (c := (c.record (.sent n c.now)).yield) hn]
      refine .inr ?_
      cases s.waiter with
      | none => exact nofun
      | some w => trivial
    · exact same (phase_setStage_of_ne hn _)
  | @fail c₁ c' m waiter e hs he hf =>
    by_cases hk : e.endsConnection = false ∧ c.stage m = .lock
    · apply same
      have hc₁ := (calls_forgetAny (c₁.record (.unsent m e)).yield waiter).trans hs.calls_eq
      have hn := hne hk.2 nofun id
      cases hf with
      | ends _ => rw [phase_setStage_of_ne hn, phase_congr hc₁]
      | closes _ hy => exact nomatch hy.symm.trans hk.1
    · exact .inl (hf.isPast hs hu hk)
  | @conclude m due w r hs hr =>
    by_cases hn : n = m
    · subst hn
      exact .inr (passed_conclude hs hr)
    · apply same
      obtain ⟨r', hq⟩ := outline_conclude c m w r
      rw [phase_congr (calls_of_outline hq), phase_setStage_of_ne hn]
  | @drop c' m waiter hm hp ha =>
    refine .inr (Phase.Passed.fades ?_ (ha.phase n))
    by_cases hn : n = m
    · subst hn
      rw [phase_setStage_self (by rwa [calls_forgetAny])]
      trivial
    · rwa [phase_setStage_of_ne hn, phase_congr (calls_forgetAny _ _)]
  | breakOff ha => exact .inl (.inl rfl)
  | route f hq =>
    exact same (phase_congr
      ((Client.calls_eq hq).symm.trans (calls_of_outline (outline_routed _ f))) n)

/-- A call has been registered, and as long as the connection is open, it does not fail for its
size. -/
structure Accepted (c : Client) (n : Nat) (id : String) : Prop where
  begun : c.life ≠ .unconnected
  registered : .registered n id ∈ c.journal
  passed : c.life.IsPast ∨ (c.phase n).Passed

theorem Accepted.move (hl : Lawful c) (hm : c.Move c') (h : c.Accepted n id) :
    c'.Accepted n id where
  begun := (hl.closes.ages hl.guarded hm).ne_unconnected h.begun
  registered := by
    obtain ⟨l, hj, -⟩ := hm.adds
    exact hj ▸ List.mem_append_left l h.registered
  passed := hm.passed hl h.begun h.passed

theorem Accepted.onward (h : c.Accepted n id) (hl : Lawful c) (h' : c.Onward c') :
    c'.Accepted n id :=
  h'.induct_lawful (P := fun d => d.Accepted n id) .move
    (fun job _ hx => ⟨hx.begun, hx.registered, hx.passed.imp_right fun hp =>
      hp.fades ((Aside.addCall _ job).phase n)⟩) hl h

theorem accepted_sendMessage {message : ClientMessage} (hl : Lawful c) (hu : c.life ≠ .unconnected)
    (he : c.Enters n message waiter (c₁.record (.sending n message)))
    (hi : .registered n id ∈ c₁.journal)
    (hz : (c.parcel message).length ≤ c.config.frameLimit.toNat) :
    (c₁.sendMessage n waiter message).Accepted n id := by
  have hs := Sends.atOnce he
  have hi' : .registered n id ∈ (c₁.record (.sending n message)).journal :=
    List.mem_append_left _ hi
  -- it is accepted when it sets out to send, or when that has failed
  have goes : ∀ {d d' : Client}, c.Move d → d.Accepted n id → d.Moves d' → d'.Accepted n id :=
    fun hm hx hd =>
      hd.induct_lawful (P := fun d => d.Accepted n id) .move (hl.move hm) hx
  have hf := frameOf?_eq_ok hz
  unfold sendMessage
  dsimp only
  rw [he.frameOf_eq, hf]
  dsimp only
  split
  next hw =>
    have hm := Move.begin he hf (he.half_eq ▸ hw)
    rw [← he.requestDue_eq] at hm
    have hn : n < (c₁.record (.sending n message)).calls.length := he.calls_eq ▸ hs.lt_length
    refine goes hm ⟨?_, hi', .inr ?_⟩ (moves_writeOn (stage_setStage_self hn _))
    · exact (hl.closes.ages hl.guarded hm).ne_unconnected hu
    · rw [phase_setStage_self hn]
      trivial
  next =>
    obtain ⟨d, hd, hm⟩ := exists_fails hs (e := .connectionClosed) (.inl rfl)
    have hm' := Move.fail hs (.inr (.inl rfl)) hd
    refine goes hm' ⟨(hl.closes.ages hl.guarded hm').ne_unconnected hu, ?_, .inl ?_⟩ hm
    · obtain ⟨l, hj, -⟩ := hd.journal_eq
      rw [hj]
      exact List.mem_append_left _ hi'
    · exact hd.isPast hs hu nofun

/-- **A request whose frame is within the limit is accepted.** -/
theorem Entering.accepted (h : c.Entering n op) (hu : c.life ≠ .unconnected)
    (hl : (c.parcel (op.message c.nextId)).length ≤ c.config.frameLimit.toNat) :
    (c.request n op).Accepted n c.nextId := by
  obtain ⟨k, hk⟩ := h.exists_register
  have he := Enters.request h.stage h.holds h.job hk
  unfold request
  rw [hk]
  exact accepted_sendMessage h.lawful hu he (by simp [record]) hl

/-! ### What goes on beside a call -/

theorem Lawful.session_move (hl : Lawful c) (hu : c.life ≠ .unconnected) (hm : c.Move c') :
    c'.session = c.session := by
  have hno : ∀ {n e due}, c.stage n ≠ .handshake e due := fun hs =>
    hu (hl.closes.unconnected_of_handshake hl.guarded hs)
  cases hm.affects hl.guarded with
  | rests hr => exact hr.session
  | begin he hf hw => cases he <;> rfl
  | retire hs hr => exact hr.session
  | establish hs _ => exact absurd hs hno
  | _ => rfl

theorem Onward.session_eq (h : c.Onward c') (hl : Lawful c) (hu : c.life ≠ .unconnected) :
    c'.config = c.config ∧ c'.session = c.session :=
  (h.induct_lawful (P := fun d => d.life ≠ .unconnected ∧ d.config = c.config ∧
    d.session = c.session) (fun hl hm ⟨hu, hc, hs⟩ =>
      ⟨(hl.closes.ages hl.guarded hm).ne_unconnected hu, (hl.config_move hm).trans hc,
        (hl.session_move hu hm).trans hs⟩) (fun _ _ hx => hx) hl ⟨hu, rfl, rfl⟩).2

theorem stage_cancelCall (c : Client) (m n : Nat) :
    (c.cancelCall m).stage n = c.stage n ∨ (c.cancelCall m).stage n = .dropped := by
  have hc := calls_cancelCall c m
  split at hc
  · rw [stage_congr hc, stage_setStage]
    split
    · exact .inr rfl
    · exact .inl rfl
  · exact .inl (stage_congr hc n)

theorem stage_cancelCalls (l : List Nat) (c : Client) (n : Nat) :
    (l.foldl cancelCall c).stage n = c.stage n ∨ (l.foldl cancelCall c).stage n = .dropped := by
  induction l generalizing c with
  | nil => exact .inl rfl
  | cons m l ih =>
    rcases ih (c.cancelCall m) with hs | hs
    · exact (stage_cancelCall c m n).imp hs.trans hs.trans
    · exact .inr hs

theorem stage_letGo (c : Client) (n : Nat) : c.letGo.stage n = c.stage n := by
  unfold letGo
  split
  · have ha := stage_eq (core_askStop { c with held := false }) n
    dsimp only
    split
    · exact ha
    · exact ha
  · rfl

theorem stage_act (c : Client) (a : Action) (n : Nat) : (c.act a).stage n = c.stage n ∨
    (c.act a).stage n = .dropped ∨ (c.act a).stage n = .fresh := by
  cases a with
  | start job =>
    have hs : (c.act (.start job)).stage n = (c.addCall job).stage n :=
      stage_eq (core_wake (c.addCall job) (.call c.calls.length)) n
    rw [hs]
    exact (stage_addCall c job n).imp_right .inr
  | cancel m => exact (stage_cancelCall c m n).imp_right .inl
  | feed more => exact .inl (stage_eq (core_wakeReaders { c with source := c.source.feed more }) n)
  | change d => exact .inl (stage_eq (core_wakeWriters { c with peer := c.peer.change d }) n)
  | advance millis => exact .inl (stage_eq (core_fireTimers { c with now := c.now + millis }) n)
  | part => exact .inl (stage_eq (core_takeLeave c) n)
  | drop =>
    rw [act, stage_letGo]
    exact (stage_cancelCalls _ c n).imp_right .inl

theorem stage_turn_dropped (hs : c.stage n = .dropped) :
    (c.turn (.call n)).stage n = .dropped := by
  have hs' : ({ c with ready := c.ready.erase (.call n) } : Client).stage n = .dropped := hs
  change (({ c with ready := c.ready.erase (.call n) } : Client).runCall n).stage n = _
  unfold runCall
  rw [hs']
  exact hs

/-! ### Over a run -/

/-- The request of an operation is too large under an id: its payload and the two bytes before it
are above the limit. -/
def Oversized (c : Client) (op : Operation) (id : String) : Prop :=
  c.config.frameLimit.toNat < (c.encoding.print (op.message id).toValue).length + 2

instance (c : Client) (op : Operation) (id : String) : Decidable (c.Oversized op id) :=
  inferInstanceAs (Decidable (_ < _))

/-- How a call stands that is not turned down for its arguments: it has not been registered, or it
is accepted, or its frame is too large and it has been refused for that. -/
inductive Weighed (large : String → Prop) (c : Client) (n : Nat) : Prop
  | before (hs : c.stage n = .fresh ∨ c.stage n = .lock ∨ c.stage n = .dropped)
  | accepted {id : String} (ha : c.Accepted n id) (hl : ¬ large id)
  | refused {id : String} {fault : ArgumentFault} (hi : .registered n id ∈ c.journal)
      (hl : large id) (hs : (c.phase n).Settles (.error (.invalidArgument fault)))

theorem Weighed.turn {large : String → Prop} (h : Possible config c) (hl : c.life = .connected)
    (hj : c.job n = .operation op) (hr : op.refusal? = none)
    (hb : ∀ id, large id ↔ c.Oversized op id) (hs : c.stage n = .fresh ∨ c.stage n = .lock) :
    Weighed large (c.turn (.call n)) n := by
  rw [turn_eq hl hj hr hs]
  split
  next hh =>
    have he := h.entering hl hj hs hh
    have hid : (c.inLine n).Oversized op (c.inLine n).nextId ↔ large (c.inLine n).nextId := by
      rw [hb]
      unfold inLine
      split <;> rfl
    by_cases hx : (c.inLine n).Oversized op (c.inLine n).nextId
    · obtain ⟨fault, hq⟩ := he.request_eq hx
      have hn : n < (c.inLine n).calls.length := lt_of_stage_ne_dropped (by simp [he.stage])
      have hi : .registered n (c.inLine n).nextId ∈ ((c.inLine n).request n op).journal := by
        rw [hq]
        simp
      have hp : (((c.inLine n).request n op).phase n).Settles
          (.error (.invalidArgument fault)) := by
        rw [hq]
        change (((c.inLine n).setStage n
          (.done (.error (.invalidArgument fault)))).phase n).Settles _
        rw [phase_setStage_self hn]
        rfl
      exact .refused hi (hid.1 hx) hp
    · refine .accepted (he.accepted ?_ (Nat.le_of_not_lt hx)) fun hl => hx (hid.2 hl)
      rw [life_inLine, hl]
      nofun
  next => exact .before (.inr (.inl (stage_inLine hs)))

/-- **How a call stands, from one state to the next.** -/
theorem Weighed.goes {large : String → Prop} (h : Possible config c) (hl : c.life = .connected)
    (hg : c.Goes c') (hr : op.refusal? = none) (hj : c'.job n = .operation op)
    (hb : ∀ id, large id ↔ c.Oversized op id)
    (hx : c.job n = .operation op → Weighed large c n) : Weighed large c' n := by
  have hg' : c.Onward c' := .single hg
  have hlaw := h.lawful
  have hw : Weighed large c n := by
    rcases Nat.lt_or_ge n c.calls.length with hn | hn
    · exact hx ((hg'.job_eq hn).symm.trans hj)
    · exact .before (.inr (.inr (by rw [stage, List.getElem?_eq_none hn]; rfl)))
  cases hw with
  | accepted ha hl => exact .accepted (ha.onward hlaw hg') hl
  | refused hi hl hs => exact .refused (hg'.mem_journal hi) hl (hg'.settles hs)
  | before hs =>
    have same : c'.stage n = c.stage n → Weighed large c' n := fun he => .before (he.symm ▸ hs)
    cases hg with
    | overlook count => exact same (stage_overlook c count n)
    | follows hf =>
      cases hf with
      | act a =>
        rcases stage_act c a n with he | he | he
        · exact same he
        · exact .before (.inr (.inr he))
        · exact .before (.inl he)
      | turn t =>
        by_cases ht : t = .call n
        · subst ht
          rcases or_assoc.2 hs with hs | hs
          · have hn : n < c.calls.length :=
              lt_of_stage_ne_dropped (by rcases hs with hs | hs <;> simp [hs])
            exact .turn h hl ((hg'.job_eq hn).symm.trans hj) hr hb hs
          · exact same ((stage_turn_dropped hs).trans hs.symm)
        · exact same (hlaw.guarded.stage_turn hlaw.closes ht)

/-- **How a call stands, over a run in which the connection stays open.** -/
theorem Onward.weighed (h' : c.Onward c') (h : Possible config c) (hl : c.life = .connected)
    (hn : c.calls.length ≤ n ∨ c.stage n = .fresh) (hl' : c'.life = .connected)
    (hr : op.refusal? = none) (hj : c'.job n = .operation op) : Weighed (c.Oversized op) c' n := by
  have hu : c.life ≠ .unconnected := by simp [hl]
  induction h' with
  | refl =>
    refine .before (hn.elim (fun hn => .inr (.inr ?_)) .inl)
    rw [stage, List.getElem?_eq_none hn]
    rfl
  | @tail d c' h' hg ih =>
    have h' : c.Onward d := h'
    have hd := h.onward h'
    have hud := h'.ne_unconnected h.lawful hu
    have hld : d.life = .connected := by
      by_contra hx
      have hg' : d.Onward c' := .single hg
      exact (hg'.isPast hd.lawful (Life.isPast_iff.2 ⟨hud, hx⟩)).ne_connected hl'
    obtain ⟨hc, hs⟩ := h'.session_eq h.lawful hu
    refine .goes hd hld hg hr hj (fun id => ?_) (ih hld)
    unfold Oversized encoding
    rw [hc, hs]

/-- **An operation fails for its size exactly if its frame is too large.** -/
theorem Onward.refused_iff (h' : c.Onward c') (h : Possible config c) (hl : c.life = .connected)
    (hn : c.calls.length ≤ n ∨ c.stage n = .fresh) (hl' : c'.life = .connected)
    (hr : op.refusal? = none) (hj : c'.job n = .operation op) {r : Except Failure Outcome}
    (hs : c'.stage n = .done r) : ∃ id, .registered n id ∈ c'.journal ∧
      ((∃ fault, r = .error (.invalidArgument fault)) ↔ c.Oversized op id) := by
  have hp : c'.phase n = .ended r := phase_of_stage hs nofun
  cases h'.weighed h hl hn hl' hr hj with
  | before hx => rcases hx with hx | hx | hx <;> cases hs.symm.trans hx
  | @accepted id ha hx =>
    refine ⟨id, ha.registered, ⟨fun ⟨fault, hf⟩ => ?_, fun hl => absurd hl hx⟩⟩
    have hpass := ha.passed.resolve_left fun hp => hp.ne_connected hl'
    rw [hp] at hpass
    exact absurd hf (hpass fault)
  | @refused id fault hi hx hset =>
    rw [hp] at hset
    exact ⟨id, hi, fun _ => hx, fun _ => ⟨fault, hset⟩⟩

/-! ### Operations that are refused -/

/-- What a call leaves behind that ends with a failure in its turn; the first client is the one
before the turn. The other calls are where they were, the peer has taken nothing, and one number has
been used up. From then on the client does the same as if the call had only used up the number,
whatever happens to it and in whatever order tasks go on. -/
structure Unmarked (c : Client) (n : Nat) (e : Failure) (c' : Client) : Prop where
  stage : ∀ m, c'.stage m = if m = n then .done (.error e) else c.stage m
  peer : c'.peer = c.peer
  half : c'.write.half = c.write.half
  life : c'.life = c.life
  routes : c'.routes = c.routes
  slots : c'.correlator.slots = c.correlator.slots
  closed : c'.correlator.closed = c.correlator.closed
  mailbox : ∀ t, c'.correlator.mailbox t = c.correlator.mailbox t
  nextId : c'.write.nextId = c.write.nextId + 1
  alike : Alike c' ((c.inLine n).skip n e)
  performs : ∀ as, (c'.performAll as).face = (((c.inLine n).skip n e).performAll as).face

theorem Possible.unmarked (h : Possible config c) (hl : c.life = .connected)
    (hj : c.job n = .operation op) (hr : op.refusal? = none)
    (hs : c.stage n = .fresh ∨ c.stage n = .lock) (hh : (c.inLine n).holds (.call n) = true)
    (hx : c.Oversized op c.nextId) :
    ∃ fault, c.Unmarked n (.invalidArgument fault) (c.turn (.call n)) := by
  have he := h.entering hl hj hs hh
  have hn : n < (c.inLine n).calls.length := lt_of_stage_ne_dropped (by simp [he.stage])
  rw [turn_eq hl hj hr hs, if_pos hh]
  obtain ⟨calls, write, l, hb, hid, hhalf, hstage⟩ := c.exists_inLine n
  have hx' : (c.inLine n).config.frameLimit.toNat <
      ((c.inLine n).parcel (op.message (c.inLine n).nextId)).length := by
    rw [hb]
    unfold nextId
    dsimp only
    rw [hid]
    exact hx
  obtain ⟨fault, hq, ha⟩ := he.alike hx'
  refine ⟨fault, ⟨fun m => ?_, ?_, ?_, ?_, ?_, ?_, ?_, fun t => ?_, ?_, ha,
    fun as => (ha.performAll as).face []⟩⟩
  · rw [hq]
    change ((c.inLine n).setStage n (.done (.error (.invalidArgument fault)))).stage m = _
    rw [stage_setStage]
    by_cases hm : m = n
    · rw [if_pos ⟨hm, hm ▸ hn⟩, if_pos hm]
    · rw [if_neg fun h => hm h.1, if_neg hm, hb]
      exact hstage m hm
  · rw [hq]
    change (c.inLine n).peer = _
    rw [hb]
  · rw [hq]
    refine (WritePath.half_release (w := (c.inLine n).write)).trans ?_
    rw [hb]
    exact hhalf
  · rw [hq]
    change (c.inLine n).life = _
    rw [hb]
  · rw [hq]
    change (c.inLine n).routes = _
    rw [hb]
  · rw [hq, correlator_inLine]
  · rw [hq, correlator_inLine]
  · rw [hq, correlator_inLine]
    exact Correlator.mailbox_concat_abandoned _ t
  · rw [hq]
    change (c.inLine n).write.nextId + 1 = _
    rw [hb]
    exact congrArg (· + 1) hid

/-- What becomes of operations that are refused before anything is sent. One whose arguments are at
fault, by an empty text or by a body that is missing or no object, ends in its first turn, whenever
that comes, and there is nothing else to it. One whose request is too large ends in the turn in
which it gets the write path, and no other operation fails like that as long as the connection stays
open. -/
structure Refuses (c : Client) : Prop where
  faults : ∀ op : Operation, (∃ e, op.Faulty e) ↔ (∃ p ∈ op.texts, p.2 = "") ∨
    op.body? = some none ∨ ∃ v, op.body? = some (some v) ∧ v.isObject = false
  started : ∀ {op e}, op.Faulty e →
    (c.act (.start (.operation op))).turn (.call c.calls.length) =
      { c with calls := c.calls ++ [⟨.operation op, .done (.error e)⟩] }
  faulty : ∀ {n op e}, c.stage n = .fresh → c.job n = .operation op → op.Faulty e →
    c.turn (.call n) = ({ c with ready := c.ready.erase (.call n) } : Client).finish n (.error e)
  oversized : ∀ {n op}, c.life = .connected → c.job n = .operation op → (∀ e, ¬ op.Faulty e) →
    c.stage n = .fresh ∨ c.stage n = .lock → (c.inLine n).holds (.call n) = true →
    c.Oversized op c.nextId →
    ∃ fault, c.Unmarked n (.invalidArgument fault) (c.turn (.call n))
  sized : ∀ {c' n op r}, c.life = .connected → c.calls.length ≤ n ∨ c.stage n = .fresh →
    c.Onward c' → c'.life = .connected → c'.job n = .operation op → (∀ e, ¬ op.Faulty e) →
    c'.stage n = .done r → ∃ id, .registered n id ∈ c'.journal ∧
      ((∃ fault, r = .error (.invalidArgument fault)) ↔ c.Oversized op id)

/-- **Operations that are refused leave no trace.** -/
theorem Possible.refuses (h : Possible config c) : c.Refuses where
  faults op := op.exists_faulty_iff
  started hf := h.alert.toOrderly.start_refused (Operation.refusal?_eq_some_iff.2 hf)
  faulty hs hj hf := turn_refused hs hj (Operation.refusal?_eq_some_iff.2 hf)
  oversized hl hj hf hs hh hx := h.unmarked hl hj (Operation.refusal?_eq_none_iff.2 hf) hs hh hx
  sized hl hn h' hl' hj hf hs :=
    h'.refused_iff h hl hn hl' (Operation.refusal?_eq_none_iff.2 hf) hj hs

/-- A client that has been asked for a ping whose frame is above the limit. -/
def pressed : Client := (linked 17).act (.start (.operation .ping))

theorem refuses_pressed : pressed.life = .connected ∧ pressed.Oversized .ping pressed.nextId ∧
    (∃ fault, pressed.Unmarked 1 (.invalidArgument fault) (pressed.turn (.call 1))) ∧
    (∃ fault, (pressed.turn (.call 1)).stage 1 = .done (.error (.invalidArgument fault)) ∧
      ∃ id, .registered 1 id ∈ (pressed.turn (.call 1)).journal ∧ pressed.Oversized .ping id) ∧
    (pressed.act (.start (.operation (.query "" ResultType.value)))).turn (.call 2) =
      { pressed with calls := pressed.calls ++ [⟨.operation (.query "" ResultType.value),
        .done (.error (.invalidArgument (.missing .query)))⟩] } := by
  have hlinked : Possible _ (linked 17) := (reachable_performAll _ _).possible
  have h : Possible _ pressed := hlinked.onward ((Onward.refl _).act _)
  have hl : pressed.life = .connected := by decide +kernel
  have hone : (linked 17).calls.length = 1 := by decide +kernel
  have htwo : pressed.calls.length = 2 := by decide +kernel
  have hp : pressed = _ := hlinked.alert.toOrderly.act_start (.operation .ping)
  have hs : pressed.stage 1 = .fresh := by
    rw [← hone, hp]
    exact stage_concat _ _ _
  have hj : pressed.job 1 = .operation .ping := by
    rw [← hone, hp]
    exact job_concat _ _ _
  have hping : ∀ e, ¬ Operation.ping.Faulty e := Operation.refusal?_eq_none_iff.1 rfl
  have hx : pressed.Oversized .ping pressed.nextId := by decide +kernel
  obtain ⟨fault, hu⟩ := h.refuses.oversized hl hj hping (.inl hs) (by decide +kernel) hx
  have ho : pressed.Onward (pressed.turn (.call 1)) := (Onward.refl _).turn _
  have hl' : (pressed.turn (.call 1)).life = .connected := hu.life.trans hl
  have hj' : (pressed.turn (.call 1)).job 1 = .operation .ping :=
    (ho.job_eq (by rw [htwo]; exact Nat.lt_succ_self 1)).trans hj
  have hs' := hu.stage 1
  rw [if_pos rfl] at hs'
  obtain ⟨id, hi, hr⟩ := h.refuses.sized hl (.inr hs) ho hl' hj' hping hs'
  refine ⟨hl, hx, ⟨fault, hu⟩, ⟨fault, hs', id, hi, hr.1 ⟨fault, rfl⟩⟩, ?_⟩
  have hq : (Operation.query "" ResultType.value).Faulty (.invalidArgument (.missing .query)) :=
    Operation.refusal?_eq_some_iff.1 rfl
  have hstart := h.refuses.started hq
  rwa [htwo] at hstart

end Client

end DocWire
