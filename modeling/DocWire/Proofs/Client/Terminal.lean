import DocWire.Proofs.Client.Events
import DocWire.Proofs.Client.Notes
import DocWire.Proofs.Client.Onward

/-! # Closing is for good

Closing begins at most once, whoever begins it and however many would. From then on the connection is
never open again: no request is under way, no subscription is open, nothing is registered, no callback
is given anything, and an operation that has not been registered before fails (`Terminated`). The
reader may still route frames that had arrived, but they reach nobody. -/

namespace DocWire

/-- Whether an incident can happen only while the connection is open. -/
def Incident.IsLive : Incident → Prop
  | .registered _ _ | .notified _ _ | .closing => True
  | _ => False

namespace Client

variable {c c' : Client} {config : Config} {n : Nat} {op : Operation} {l : List Incident}

/-! ### Closing begins once -/

/-- What has been written down tells of the life of the connection: closing has not begun, or it has
begun once, and what is live has come before it. -/
structure Told (c : Client) : Prop where
  opened : ¬ c.life.IsPast → .closing ∉ c.journal
  closed : c.life.IsPast → ∃ before after, c.journal = before ++ .closing :: after ∧
    .closing ∉ before ∧ ∀ i ∈ after, ¬ i.IsLive

/-- Once closing has begun, a move writes down nothing that is live. -/
theorem Lawful.not_isLive (h : Lawful c) (hp : c.life.IsPast) (hj : c'.journal = c.journal ++ l)
    (hm : c.Move c') : ∀ i ∈ l, ¬ i.IsLive := by
  obtain ⟨l₁, hj₁, hn⟩ := hm.notes
  obtain ⟨l₂, hj₂, hx⟩ := (h.correlated.feeds hm).notified h.feeding
  obtain rfl := List.append_cancel_left (hj.symm.trans hj₁)
  obtain rfl := List.append_cancel_left (hj₁.symm.trans hj₂)
  intro i hi hl
  cases i with
  | registered n id => exact nomatch (h.closes.closed hp).symm.trans (hn.registered hi).2
  | notified n event =>
    obtain ⟨id, hs⟩ := hx n event hi
    exact hp.ne_connected (h.kept.live hs)
  | closing => exact hp.ne_connected (hn.closing hi).1
  | _ => exact hl

theorem Told.move (hl : Lawful c) (hm : c.Move c') (h : Told c) : Told c' := by
  obtain ⟨l, hj, hn⟩ := hm.notes
  refine ⟨fun hp hc => ?_, fun hp => ?_⟩
  · rw [hj] at hc
    rcases List.mem_append.1 hc with hc | hc
    · exact h.opened (fun hx => hp (hl.isPast_move hm hx)) hc
    · exact hp (.inl (hn.closing hc).2)
  · by_cases hx : c.life.IsPast
    · obtain ⟨before, after, hb, hn, ha⟩ := h.closed hx
      refine ⟨before, after ++ l, by rw [hj, hb]; simp, hn, fun i hi => ?_⟩
      exact (List.mem_append.1 hi).elim (ha i) (hl.not_isLive hx hj hm i)
    · cases hl.closes.ages hl.guarded hm with
      | same he => exact absurd (he ▸ hp) hx
      | opens _ he => exact absurd he hp.ne_connected
      | @closing j _ _ hj' =>
        refine ⟨j, [], hj', closings_eq_zero.1 ?_, nofun⟩
        have hc := closings_append c.journal l
        rw [← hj, hj', closings_append, closings_eq_zero.2 (h.opened hx)] at hc
        have hone : closings [.closing] = 1 := rfl
        have := hn.once
        omega
      | closed hx' _ => exact absurd hx' hx

theorem Possible.told (h : Possible config c) : Told c :=
  Onward.induct_lawful (P := Told) (fun hl hm => .move hl hm)
    (fun _ _ hx => ⟨hx.opened, hx.closed⟩) h (.initial config)
    ⟨fun _ => nofun, fun hp => absurd rfl hp.ne_unconnected⟩

theorem Told.closings_eq (h : Told c) :
    (c.life.IsPast → closings c.journal = 1) ∧ (¬ c.life.IsPast → closings c.journal = 0) := by
  refine ⟨fun hp => ?_, fun hp => closings_eq_zero.2 (h.opened hp)⟩
  obtain ⟨before, after, hj, hb, ha⟩ := h.closed hp
  have ha' : closings after = 0 := closings_eq_zero.2 fun hm => ha _ hm trivial
  have hone : closings (.closing :: after) = closings after + 1 := List.countP_cons_of_pos rfl
  rw [hj, closings_append, closings_eq_zero.2 hb, hone, ha']

/-! ### Operations that come too late -/

/-- Where an operation can be that has not been registered when closing began. -/
inductive Barred (op : Operation) : Stage → Prop
  | fresh : Barred op .fresh
  | lock : Barred op .lock
  | dropped : Barred op .dropped
  | refused {e : Failure} (he : e = .connectionClosed ∨ op.refusal? = some e) :
    Barred op (.done (.error e))

theorem Barred.move (hm : c.Move c') (hl : Lawful c) (hp : c.life.IsPast)
    (hj : c.job n = .operation op) (h : Barred op (c.stage n)) : Barred op (c'.stage n) := by
  cases hm.proceeds n with
  | stays hs => rwa [hs]
  | givenUp hs =>
    rw [hs]
    exact .dropped
  | begins hs hx =>
    rcases hx op hj with hc | ⟨e, hs', he⟩
    · exact absurd hc hp.ne_connected
    · rw [hs']
      exact .refused he
  | enters hs hx =>
    rcases hx op hj with hc | hs'
    · exact nomatch (hl.closes.closed hp).symm.trans hc
    · rw [hs']
      exact .refused (.inl rfl)
  | works hs => cases h' : c.stage n <;> rw [h'] at h hs <;> cases h <;> cases hs
  | takes hs _ | joins hs _ =>
    rw [hs] at h
    cases h
  | rests hs _ =>
    rcases hs with hs | hs <;> rw [hs] at h <;> cases h

theorem Barred.addCall (job : Job) (h : ∀ op, c.job n = .operation op → Barred op (c.stage n)) :
    ∀ op, (c.addCall job).job n = .operation op → Barred op ((c.addCall job).stage n) := by
  intro op hj
  rcases Nat.lt_or_ge n c.calls.length with hn | hn
  · have hc : c.calls[n]? ≠ none := by simp [hn]
    rw [stage_addCall_of_lt hn]
    exact h op (((Aside.addCall c job).job n hc).symm.trans hj)
  · rcases stage_addCall c job n with hs | hs
    · rw [hs, stage, List.getElem?_eq_none hn]
      exact .dropped
    · rw [hs]
      exact .fresh

/-- **An operation that has not been registered when closing has begun fails.** -/
theorem Onward.barred (h : c.Onward c') (hl : Lawful c) (hp : c.life.IsPast)
    (hx : ∀ op, c.job n = .operation op → Barred op (c.stage n)) :
    ∀ op, c'.job n = .operation op → Barred op (c'.stage n) := by
  refine (h.induct_lawful (P := fun d => d.life.IsPast ∧
    ∀ op, d.job n = .operation op → Barred op (d.stage n)) (fun hl hm ⟨hp, hx⟩ => ?_)
    (fun job _ ⟨hp, hx⟩ => ⟨hp, Barred.addCall job hx⟩) hl ⟨hp, hx⟩).2
  refine ⟨hl.isPast_move hm hp, fun op hj => ?_⟩
  rw [hm.job_eq n] at hj
  exact (hx op hj).move hm hl hp hj

/-! ### Closing is for good -/

theorem size_eq_zero_of_get? {κ : Type} {r : Routes κ} (h : ∀ id, r.get? id = none) :
    r.size = 0 := by
  obtain ⟨entries⟩ := r
  cases entries with
  | nil => rfl
  | cons e entries =>
    have he := h e.1
    simp [Routes.get?] at he

/-- What a client is like in a state after closing has begun in another. The connection is never
open again, no request is under way or can be registered, no subscription is open, and no callback
has been given anything since closing began, which it did once. At most one task takes the
connection down.

An operation that had not been started, had not set out, or was in line for the write path ends with
a failure, if it ends (`refused`). -/
structure Terminated (c c' : Client) : Prop where
  past : c'.life = .closing ∨ c'.life = .closed
  pending : c'.correlator.size = 0
  subscriptions : c'.routes.size = 0
  register : ∀ id sub, c'.correlator.register id sub = .error .connectionClosed
  journal : ∃ before after, c'.journal = before ++ .closing :: after ∧ .closing ∉ before ∧
    ∀ i ∈ after, ¬ i.IsLive
  sole : ∀ t t', c'.TearsDown t → c'.TearsDown t' → t = t'
  refused : ∀ {n op r}, c.calls.length ≤ n ∨ c.stage n = .fresh ∨ c.stage n = .lock →
    c'.job n = .operation op → c'.stage n = .done r →
    ∃ e, r = .error e ∧ (e = .connectionClosed ∨ op.refusal? = some e)

theorem Lawful.size_eq_zero (h : Lawful c) (hp : c.life.IsPast) :
    c.correlator.size = 0 ∧ c.routes.size = 0 := by
  refine ⟨congrArg List.length (h.closes.empty hp.ne_connected), size_eq_zero_of_get? fun id => ?_⟩
  refine Option.eq_none_iff_forall_ne_some.2 fun target ht => ?_
  obtain ⟨n, -, hs⟩ := (h.feeding.routes id target).1 ht
  exact hp.ne_connected (h.kept.live hs)

theorem Barred.of_unregistered
    (h : c.calls.length ≤ n ∨ c.stage n = .fresh ∨ c.stage n = .lock) (op : Operation) :
    Barred op (c.stage n) := by
  rcases h with h | h | h
  · rw [stage, List.getElem?_eq_none h]
    exact .dropped
  · rw [h]
    exact .fresh
  · rw [h]
    exact .lock

/-- **Closing begins at most once, and it is for good.** -/
theorem Possible.terminates (h : Possible config c) :
    closings c.journal ≤ 1 ∧ (c.life.IsPast → ∀ c', c.Onward c' → c.Terminated c') := by
  refine ⟨?_, fun hp c' h' => ?_⟩
  · by_cases hp : c.life.IsPast
    · exact Nat.le_of_eq (h.told.closings_eq.1 hp)
    · exact h.told.closings_eq.2 hp ▸ Nat.zero_le 1
  have hl' := h.lawful.onward h'
  have hp' := h'.isPast h.lawful hp
  obtain ⟨hz, hr⟩ := hl'.size_eq_zero hp'
  refine ⟨hp', hz, hr, fun id sub => ?_, (h.onward h').told.closed hp',
    fun t t' => hl'.teardown.sole, fun {n op r} hn hj hs => ?_⟩
  · unfold Correlator.register
    rw [if_pos (hl'.closes.closed hp')]
  · have hb := h'.barred h.lawful hp (fun op _ => .of_unregistered hn op) op hj
    rw [hs] at hb
    cases hb with
    | refused he => exact ⟨_, rfl, he⟩

/-- A client that is closing while a push for its subscription has arrived. -/
def leaving : Client :=
  (((following.perform (.change ⟨none, none, none, none, some .waits⟩)).act
    (.feed [.chunk (deletion 0x32)])).act (.start .disconnect)).turn (.call 4)

theorem terminates_leaving : closings leaving.journal ≤ 1 ∧ leaving.life = .closing ∧
    leaving.journal.length < (leaving.overlook 1).journal.length ∧
    leaving.Terminated (leaving.overlook 1) := by
  have hf : Reachable .default following := reachable_performAll _ _
  have h : Possible .default leaving :=
    ((((hf.later (later_perform _ _)).possible.onward (.refl _)).act _).act _).turn _
  have hl : leaving.life = .closing := by decide +kernel
  exact ⟨h.terminates.1, hl, by decide +kernel,
    h.terminates.2 (.inl hl) _ (.overlook (.refl _) 1)⟩

end Client

end DocWire
