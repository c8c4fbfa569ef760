import DocWire.Proofs.Client.Correlation
import DocWire.Proofs.Client.Settling

/-! # Every call gets its own reply

The reply that a call obtains is the first one that is routed while the call is registered, and a
call that is sent and not given up obtains it: its mailbox is filled, whoever fills it wakes the
call, and settling gives the call its turn. -/

namespace DocWire

open DocWire.Correlator (Waiter Slot)

/-! ### What a reply can fail with -/

/-- Whether a failure is one that a reply tells of, or that is found when the reply is read. -/
def Failure.IsAnswer : Failure → Prop
  | .decodeFailed _ | .serverError _ | .notFound _ => True
  | _ => False

variable {e : Failure}

theorem Operation.isAnswer_of_open? {reply : Reply} (h : Operation.open? reply = .error e) :
    e.IsAnswer := by
  unfold Operation.open? Encoding.decode at h
  split at h
  next e' he =>
    cases h
    split at he
    · cases he
    · cases he
      trivial
  · cases h
    trivial
  · cases h

theorem Operation.isAnswer_of_resultData {reply : Reply}
    (h : Operation.resultData reply = .error e) : e.IsAnswer := by
  unfold Operation.resultData at h
  split at h
  next e' he =>
    cases h
    exact Operation.isAnswer_of_open? he
  · cases h
  · cases h
    trivial

theorem Result.isAnswer_of_ofData {convert? : Conversion} {v : Value}
    (h : Result.ofData convert? v = .error e) : e.IsAnswer := by
  unfold Result.ofData at h
  split at h
  · cases h
  · cases h
    trivial

theorem Operation.isAnswer_of_foundDocument {collection documentId : String} {v : Value}
    (h : Operation.foundDocument collection documentId v = .error e) : e.IsAnswer := by
  unfold Operation.foundDocument at h
  split at h
  · cases h
    trivial
  · exact Result.isAnswer_of_ofData h

theorem Operation.isAnswer_of_data {reply : Reply} {read : Value → Except Failure Result}
    (hr : ∀ v, read v = .error e → e.IsAnswer)
    (h : (match Operation.resultData reply with
      | .error e => Except.error e
      | .ok data => read data) = .error e) : e.IsAnswer := by
  split at h
  next e' he =>
    cases h
    exact Operation.isAnswer_of_resultData he
  next data _ => exact hr data h

/-- **An operation fails on a reply because of what the reply says.** -/
theorem Operation.isAnswer_of_answer {op : Operation} {id : String} {reply : Reply}
    (h : op.answer id reply = .error e) : e.IsAnswer := by
  have ho : ∀ {e' : Failure}, Operation.open? reply = .error e' →
      (.error e' : Except Failure Result) = .error e → e.IsAnswer := by
    rintro e' he ⟨⟩
    exact Operation.isAnswer_of_open? he
  cases op with
  | ping =>
    unfold Operation.answer at h
    dsimp only at h
    split at h
    next e' he => exact ho he h
    · cases h
    · cases h
      trivial
  | subscribe text fails =>
    unfold Operation.answer at h
    dsimp only at h
    split at h
    next e' he => exact ho he h
    · cases h
  | query text convert? => exact isAnswer_of_data (fun v => Result.isAnswer_of_ofData) h
  | insert collection body => exact isAnswer_of_data (fun v => Result.isAnswer_of_ofData) h
  | update collection documentId body =>
    exact isAnswer_of_data (fun v => isAnswer_of_foundDocument) h
  | delete collection documentId => exact isAnswer_of_data (fun v => isAnswer_of_foundDocument) h
  | listCollections => exact isAnswer_of_data (fun v => Result.isAnswer_of_ofData) h

namespace Client

variable {config : Config} {c : Client} {n m : Nat} {id : String} {reply : Reply}

theorem isAnswer_of_replyOutcome {job : Job} {e : Failure}
    (h : replyOutcome job id reply = .error e) : e.IsAnswer := by
  unfold replyOutcome at h
  split at h
  next op =>
    cases ha : op.answer id reply with
    | error e' =>
      rw [ha] at h
      cases h
      exact Operation.isAnswer_of_answer ha
    | ok r =>
      rw [ha] at h
      cases h
  · cases h

theorem eq_of_failedOutcome {job : Job} {e e' : Failure} (h : failedOutcome job e = .error e') :
    e' = e := by
  unfold failedOutcome at h
  split at h
  · cases h
  · cases h
    rfl

/-! ### What a frame changes -/

theorem calls_routed (c : Client) (f : Frame) : (c.routed f).calls = c.calls := by
  unfold routed
  split
  · split <;> rfl
  · unfold dispatch
    split <;> rfl
  · rfl

theorem stage_route (c : Client) (f : Frame) (n : Nat) : (c.route f).stage n = c.stage n := by
  rw [stage_eq (core_route c f)]
  exact stage_congr (calls_routed (c.record (.routed f)) f) n

/-- A frame that is no reply to a call that is registered leaves its mailbox as it is. -/
theorem Correlated.mailbox_route (h : Correlated c) {f : Frame} {w : Waiter}
    (hw : (c.phase n).waiter? = some w)
    (hf : ¬ (Registered c.journal n w.id ∧ ∃ reply, f.reply? = some (w.id, reply))) :
    (c.route f).correlator.mailbox w.ticket = c.correlator.mailbox w.ticket := by
  rw [correlator_eq (core_route c f)]
  unfold routed
  split
  next id reply hr =>
    split
    next slot hl =>
      obtain ⟨m, w', hw', rfl, rfl, hg, -⟩ := h.of_lookup hl
      refine (Correlator.mailbox_fulfill _ _ _ _).trans (if_neg fun ht => hf ?_)
      have hn := h.apart hw hw' ht.1
      subst hn
      rw [hw] at hw'
      cases hw'
      exact ⟨hg, reply, hr⟩
    next => rfl
  next =>
    unfold dispatch
    split <;> rfl
  next => rfl

/-! ### Correlation -/

/-- What holds of a call whose request has been registered under an id. The registry has the id as
long as the journal says so. The reply that the call obtains is the one that was routed while the
call was registered, and its outcome is what that reply says; a call that is sent, resolved and not
given up has obtained its reply or is about to.

A frame resolves no other call (`alone`), and no frame but a reply that is routed while the call is
registered changes how far the call has come, or what it finds when it waits (`unmoved`). A call
times out only after the time it has been given since its frame was out, and only without a reply. -/
structure Correlates (c : Client) (n : Nat) (id : String) : Prop where
  registered : c.correlator.contains id = true ↔ Registered c.journal n id
  obtained : ∀ reply, .answered n reply ∈ c.journal →
    (∀ r, Resolved c.journal n id r ↔ r = reply) ∧
      c.stage n = .done (replyOutcome (c.job n) id reply)
  obtains : ∀ reply t, Resolved c.journal n id reply → .sent n t ∈ c.journal →
    c.stage n ≠ .dropped → .answered n reply ∈ c.journal ∨ .call n ∈ c.ready
  settles : c.settle.ready = []
  alone : ∀ before f since m id', c.journal = before ++ .routed f :: since →
    Registered before n id → (∃ reply, f.reply? = some (id, reply)) →
    Registered before m id' → (∃ reply, f.reply? = some (id', reply)) → m = n
  unmoved : ∀ f, ¬ (Registered c.journal n id ∧ ∃ reply, f.reply? = some (id, reply)) →
    (c.route f).stage n = c.stage n ∧ ∀ w, (c.phase n).waiter? = some w →
      (c.route f).correlator.mailbox w.ticket = c.correlator.mailbox w.ticket
  timeout : ∀ bound, c.stage n = .done (.error (.timeout bound)) →
    bound = c.config.requestTimeout ∧ (∀ r, ¬ Resolved c.journal n id r) ∧
      ∃ t, .sent n t ∈ c.journal ∧ t + c.config.requestTimeout.toMillis ≤ c.now

theorem Correlated.registered_iff (h : Correlated c) (hg : .registered n id ∈ c.journal) :
    c.correlator.contains id = true ↔ Registered c.journal n id := by
  unfold Correlator.contains
  rw [Option.isSome_iff_exists]
  constructor
  · rintro ⟨slot, hl⟩
    obtain ⟨m, w, -, -, -, hr, -⟩ := h.of_lookup hl
    rwa [h.sameCall hg hr.mem]
  · intro hr
    obtain ⟨w, -, -, -, hl, -⟩ := h.of_registered hr
    exact ⟨_, hl⟩

theorem Correlated.obtained (h : Correlated c) (hg : .registered n id ∈ c.journal)
    (ha : .answered n reply ∈ c.journal) :
    (∀ r, Resolved c.journal n id r ↔ r = reply) ∧
      c.stage n = .done (replyOutcome (c.job n) id reply) := by
  have ht := h.tells n
  have hs : ∀ {r}, c.phase n = .ended r → c.stage n = .done r := by
    intro r hp
    by_cases hd : c.stage n = .dropped
    · unfold phase at hp
      unfold stage at hd
      cases hc : c.calls[n]? with
      | none => rw [hc] at hp; cases hp
      | some call =>
        rw [hc] at hp hd
        have hd : call.stage = .dropped := hd
        have hp : call.stage.phase = .ended r := hp
        rw [hd] at hp
        cases hp
    · rw [phase_of_stage rfl hd] at hp
      generalize c.stage n = s at hp
      cases s with
      | done r' => cases hp; rfl
      | closeLock k => cases k <;> cases hp
      | closeShutdown k => cases k <;> cases hp
      | _ => cases hp
  cases hp : c.phase n with
  | idle => rw [hp] at ht; exact absurd rfl (ht _ hg)
  | sending waiter => rw [hp] at ht; exact absurd ha (ht.2.2.2.2 reply)
  | waiting w due => rw [hp] at ht; exact absurd ha (ht.2.2.2 reply)
  | failing r => rw [hp] at ht; exact absurd ha (ht.2 reply)
  | dropped => rw [hp] at ht; exact absurd ha (ht.2 reply)
  | ended r =>
    rw [hp] at ht
    obtain ⟨-, hv⟩ := ht id hg
    have hsr := hs hp
    cases hv with
    | answered _ ha' hr =>
      cases (ha' reply).1 ha
      exact ⟨hr, hsr⟩
    | unsent _ _ _ ha' => exact absurd ha (ha' reply)
    | late _ ha' => exact absurd ha (ha' reply)
    | cut _ ha' => exact absurd ha (ha' reply)

/-- A call that is sent and resolved has obtained its reply, or waits with the reply in its
mailbox. -/
theorem Correlated.obtains (h : Correlated c) {t : Nat} (hr : Resolved c.journal n id reply)
    (hs : .sent n t ∈ c.journal) (hd : c.stage n ≠ .dropped) :
    .answered n reply ∈ c.journal ∨
      ∃ w due, c.stage n = .await w due ∧ c.correlator.mailbox w.ticket = .filled reply := by
  have ht := h.tells n
  have hv : ∀ {r}, c.Verdict n id r → .answered n reply ∈ c.journal := by
    intro r hv
    cases hv with
    | answered _ ha hr' => exact (ha reply).2 ((hr' reply).1 hr)
    | unsent _ _ hs' => exact absurd hs (hs' t)
    | late _ _ _ hr' => exact absurd hr (hr' reply)
    | cut _ _ hr' => exact absurd hr (hr' reply)
  rw [phase_of_stage rfl hd] at ht
  generalize hst : c.stage n = s at ht hd
  cases s with
  | await w due =>
    obtain ⟨⟨hg, hb⟩, -⟩ := ht
    have hid := h.sameId hg hr.mem
    subst hid
    refine .inr ⟨w, due, rfl, ?_⟩
    generalize c.correlator.mailbox w.ticket = b at hb
    cases hb with
    | vacant _ _ hr' => exact absurd hr (hr' reply)
    | filled _ _ hr' => rw [(hr' reply).1 hr]
    | orphaned _ _ hr' => exact absurd hr (hr' reply)
  | send s => exact absurd hs (ht.2.2.1 t)
  | done r => exact .inl (hv (ht id hr.mem).2)
  | closeLock k =>
    cases k with
    | finish r => exact .inl (hv (ht.1 id hr.mem).2)
    | join => exact absurd rfl (ht _ hr.mem)
  | closeShutdown k =>
    cases k with
    | finish r => exact .inl (hv (ht.1 id hr.mem).2)
    | join => exact absurd rfl (ht _ hr.mem)
  | dropped => exact absurd rfl hd
  | _ => exact absurd rfl (ht _ hr.mem)

theorem Correlated.timeout (h : Correlated c) (hg : .registered n id ∈ c.journal) {bound : Span}
    (hs : c.stage n = .done (.error (.timeout bound))) :
    bound = c.config.requestTimeout ∧ (∀ r, ¬ Resolved c.journal n id r) ∧
      ∃ t, .sent n t ∈ c.journal ∧ t + c.config.requestTimeout.toMillis ≤ c.now := by
  have ht := h.tells n
  rw [phase_of_stage hs nofun] at ht
  obtain ⟨-, hv⟩ := ht id hg
  generalize ho : (.error (.timeout bound) : Except Failure Outcome) = r at hv
  cases hv with
  | answered _ _ _ => exact (isAnswer_of_replyOutcome ho.symm).elim
  | unsent he _ _ _ =>
    cases eq_of_failedOutcome ho.symm
    rcases he with ⟨fault, he⟩ | he | ⟨fault, he⟩ <;> cases he
  | late hx _ hd hr =>
    cases ho
    exact ⟨rfl, hr, _, hx, hd⟩
  | cut _ _ _ _ => cases ho

/-- **Reply correlation**, in every run and whichever way the tasks take their turns. -/
theorem Possible.correlates (h : Possible config c) (hg : .registered n id ∈ c.journal) :
    c.Correlates n id where
  registered := h.correlated.registered_iff hg
  obtained reply ha := h.correlated.obtained hg ha
  obtains reply t hr hs hd := by
    refine (h.correlated.obtains hr hs hd).imp_right ?_
    rintro ⟨w, due, hst, hm⟩
    exact h.alert.woken n w due nofun hst (by rw [hm]; nofun)
  settles := h.ready_settle
  alone before f since m id' hj hn hf hm hf' := by
    obtain ⟨reply, hf⟩ := hf
    obtain ⟨reply', hf'⟩ := hf'
    rw [hf] at hf'
    cases hf'
    have hm' : .registered m id ∈ c.journal := by
      rw [hj]
      exact List.mem_append_left _ hm.mem
    exact h.correlated.sameCall hm' hg
  unmoved f hf := by
    refine ⟨stage_route c f n, fun w hw => h.correlated.mailbox_route hw ?_⟩
    rwa [h.correlated.sameId (h.correlated.waits hw).1 hg]
  timeout bound hs := h.correlated.timeout hg hs

/-- A client that has connected and sent a ping. -/
def pinging : Client :=
  (initial .default).performAll
    [.start .connect, .feed [.chunk ([0, 1, 1] ++ List.replicate 16 7)], .start (.operation .ping)]

theorem mem_registered_of_any {j : List Incident}
    (h : (j.any fun
      | .registered n' id' => n' == n && id' == id
      | _ => false) = true) : .registered n id ∈ j := by
  obtain ⟨i, hi, hb⟩ := List.any_eq_true.1 h
  split at hb
  next n' id' =>
    obtain ⟨hn, hid⟩ := Bool.and_eq_true_iff.1 hb
    rwa [← beq_iff_eq.1 hn, ← beq_iff_eq.1 hid]
  next => cases hb

/-- The reply to the ping with a digit as its id. -/
def pong (digit : UInt8) : List UInt8 :=
  [0, 0, 0, 18, 2, 1, 0x82, 0xa2, 0x69, 0x64, 0xa1, digit, 0xa4, 0x74, 0x79, 0x70, 0x65, 0xa4, 0x70,
    0x6f, 0x6e, 0x67]

/-- A client that has sent two pings. The first has been answered, and then answered once more, and
a reply has come to an id that nobody has; the time of the second is up. -/
def polling : Client :=
  (initial .default).performAll
    [.start .connect, .feed [.chunk ([0, 1, 1] ++ List.replicate 16 7)], .start (.operation .ping),
      .start (.operation .ping), .feed [.chunk (pong 0x31 ++ pong 0x31 ++ pong 0x39)],
      .advance 30000]

theorem correlates_polling :
    (.registered 1 "1" ∈ polling.journal ∧ .registered 2 "2" ∈ polling.journal) ∧
    (polling.journal.any fun | .answered 1 _ => true | _ => false) = true ∧
    (polling.journal.countP fun | .routed _ => true | _ => false) = 3 ∧
    (match polling.stage 2 with | .done (.error (.timeout _)) => true | _ => false) = true ∧
    polling.Correlates 1 "1" ∧ polling.Correlates 2 "2" := by
  have hp : Possible .default polling := (reachable_performAll _ _).possible
  have h1 : .registered 1 "1" ∈ polling.journal := mem_registered_of_any (by decide +kernel)
  have h2 : .registered 2 "2" ∈ polling.journal := mem_registered_of_any (by decide +kernel)
  exact ⟨⟨h1, h2⟩, by decide +kernel, by decide +kernel, by decide +kernel, hp.correlates h1,
    hp.correlates h2⟩

end Client

end DocWire
