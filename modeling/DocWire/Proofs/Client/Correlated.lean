import DocWire.Proofs.Client.Registrations
import DocWire.Proofs.Client.Turns
import DocWire.Proofs.Correlator.Operations

/-! # Requests and their replies

For the wait for a reply it matters only whether a call has sent nothing yet, is sending, waits, is
over or has been given up: this is its phase. `Tells` says for each phase what the journal, the
registry and the mailboxes tell of a call, and `Correlated` holds these together with the fact that
ids and tickets are not shared. It is an invariant of all moves. Most moves change nothing that it
speaks of (`Fades`). -/

namespace DocWire

open DocWire.Correlator (Waiter Slot Mailbox)

/-- How far the wait for a reply has come. While a call is idle it has no waiter and has sent
nothing; when the sending has failed it closes the connection before it ends (`failing`). -/
inductive Phase where
  | idle
  | sending (waiter : Option Waiter)
  | waiting (w : Waiter) (due : Nat)
  | failing (r : Except Failure Outcome)
  | ended (r : Except Failure Outcome)
  | dropped

/-- The phase of a stage. -/
def Stage.phase : Stage → Phase
  | .fresh | .handshake _ _ | .lock | .join | .closeLock .join | .closeShutdown .join => .idle
  | .send s => .sending s.waiter
  | .await w due => .waiting w due
  | .closeLock (.finish r) | .closeShutdown (.finish r) => .failing r
  | .done r => .ended r
  | .dropped => .dropped

/-- The waiter of a phase. -/
def Phase.waiter? : Phase → Option Waiter
  | .sending waiter => waiter
  | .waiting w _ => some w
  | _ => none

/-- Whether a phase may turn into another without anything being said about the call. -/
inductive Phase.Fades : Phase → Phase → Prop
  | refl (p : Phase) : Fades p p
  | ended (r : Except Failure Outcome) : Fades .idle (.ended r)
  | dropped : Fades .idle .dropped
  | closed (r : Except Failure Outcome) : Fades (.failing r) (.ended r)
  | given (r : Except Failure Outcome) : Fades (.failing r) .dropped

theorem Phase.Fades.waiter? {p p' : Phase} (h : p.Fades p') : p'.waiter? = p.waiter? := by
  cases h <;> rfl

namespace Client

/-- The phase of a call; a call that has not been started is idle. -/
def phase (c : Client) (n : Nat) : Phase := (c.calls[n]?.map (·.stage.phase)).getD .idle

/-- Where the pushes of the subscription go that a call asks for, if it does. -/
def targetFor (c : Client) (n : Nat) : Option Target :=
  match c.job n with
  | .operation op => targetOf n op
  | _ => none

/-- What there is to a mailbox of a call that waits for a reply, or will. -/
inductive Box (c : Client) (n : Nat) (w : Waiter) : Mailbox → Prop
  | vacant (hg : Registered c.journal n w.id)
      (hl : c.correlator.slots.lookup w.id = some ⟨w.ticket, c.targetFor n⟩)
      (hr : ∀ r, ¬ Resolved c.journal n w.id r) : Box c n w .vacant
  | filled {reply : Reply} (hg : ¬ Registered c.journal n w.id)
      (hl : c.correlator.slots.lookup w.id = none)
      (hr : ∀ r, Resolved c.journal n w.id r ↔ r = reply) : Box c n w (.filled reply)
  | orphaned (hg : ¬ Registered c.journal n w.id) (hl : c.correlator.slots.lookup w.id = none)
      (hr : ∀ r, ¬ Resolved c.journal n w.id r) (hc : .closing ∈ c.journal) : Box c n w .orphaned

/-- A call has registered a request and has a waiter for its reply. -/
def Waits (c : Client) (n : Nat) (w : Waiter) : Prop :=
  .registered n w.id ∈ c.journal ∧ c.Box n w (c.correlator.mailbox w.ticket)

/-- How a call that was registered has come to its end. -/
inductive Verdict (c : Client) (n : Nat) (id : String) : Except Failure Outcome → Prop
  | answered {t : Nat} {reply : Reply} (hs : .sent n t ∈ c.journal)
      (ha : ∀ r, .answered n r ∈ c.journal ↔ r = reply)
      (hr : ∀ r, Resolved c.journal n id r ↔ r = reply) :
      Verdict c n id (replyOutcome (c.job n) id reply)
  | unsent {e : Failure} (he : IsSendFault e) (hu : .unsent n e ∈ c.journal)
      (hs : ∀ t, .sent n t ∉ c.journal) (ha : ∀ r, .answered n r ∉ c.journal) :
      Verdict c n id (failedOutcome (c.job n) e)
  | late {t : Nat} (hs : .sent n t ∈ c.journal) (ha : ∀ r, .answered n r ∉ c.journal)
      (hd : t + c.config.requestTimeout.toMillis ≤ c.now)
      (hr : ∀ r, ¬ Resolved c.journal n id r) :
      Verdict c n id (.error (.timeout c.config.requestTimeout))
  | cut {t : Nat} (hs : .sent n t ∈ c.journal) (ha : ∀ r, .answered n r ∉ c.journal)
      (hr : ∀ r, ¬ Resolved c.journal n id r) (hc : .closing ∈ c.journal) :
      Verdict c n id (.error .connectionClosed)

/-- What is known of a call in a phase. -/
def Tells (c : Client) (n : Nat) : Phase → Prop
  | .idle => ∀ i ∈ c.journal, i.caller? ≠ some n
  | .sending waiter =>
    (∀ w, waiter = some w → c.Waits n w) ∧
      (waiter = none → ∀ id, .registered n id ∉ c.journal) ∧
      (∀ t, .sent n t ∉ c.journal) ∧ (∀ e, .unsent n e ∉ c.journal) ∧
      ∀ r, .answered n r ∉ c.journal
  | .waiting w due =>
    c.Waits n w ∧
      (∃ t, .sent n t ∈ c.journal ∧ due = t + c.config.requestTimeout.toMillis) ∧
      (∀ e, .unsent n e ∉ c.journal) ∧ ∀ r, .answered n r ∉ c.journal
  | .failing r =>
    (∀ id, .registered n id ∈ c.journal → ¬ Registered c.journal n id ∧ c.Verdict n id r) ∧
      ∀ reply, .answered n reply ∉ c.journal
  | .ended r => ∀ id, .registered n id ∈ c.journal →
    ¬ Registered c.journal n id ∧ c.Verdict n id r
  | .dropped =>
    (∀ id, .registered n id ∈ c.journal → ¬ Registered c.journal n id) ∧
      ∀ reply, .answered n reply ∉ c.journal

/-- **The invariant of requests and replies.** -/
structure Correlated (c : Client) : Prop where
  tells : ∀ n, c.Tells n (c.phase n)
  numbered : ∀ n id, .registered n id ∈ c.journal → ∃ k < c.write.nextId, id = toString k
  sameId : ∀ {n id id'}, .registered n id ∈ c.journal → .registered n id' ∈ c.journal → id = id'
  sameCall : ∀ {n n' id}, .registered n id ∈ c.journal → .registered n' id ∈ c.journal → n = n'
  slots : ∀ {id slot}, c.correlator.slots.lookup id = some slot →
    ∃ n w, (c.phase n).waiter? = some w ∧ w.id = id ∧ w.ticket = slot.ticket
  apart : ∀ {n n' w w'}, (c.phase n).waiter? = some w → (c.phase n').waiter? = some w' →
    w.ticket = w'.ticket → n = n'

variable {c c' d : Client} {n m : Nat} {w : Waiter} {p p' : Phase}

/-! ### Phases -/

theorem phase_of_stage {s : Stage} (h : c.stage n = s) (hs : s ≠ .dropped) :
    c.phase n = s.phase := by
  unfold stage at h
  unfold phase
  cases hc : c.calls[n]? with
  | none =>
    rw [hc] at h
    exact absurd h.symm hs
  | some call =>
    rw [hc] at h
    rw [← h]
    rfl

theorem phase_setStage (c : Client) (n i : Nat) (s : Stage) :
    (c.setStage n s).phase i = if i = n ∧ n < c.calls.length then s.phase else c.phase i := by
  unfold phase setStage
  rw [List.getElem?_modify]
  by_cases hi : n = i
  · subst hi
    by_cases hn : n < c.calls.length
    · simp [hn]
    · simp [hn]
  · simp [hi, Ne.symm hi]

theorem phase_setStage_self (hn : n < c.calls.length) (s : Stage) :
    (c.setStage n s).phase n = s.phase := by simp [phase_setStage, hn]

theorem phase_setStage_of_ne (hm : m ≠ n) (s : Stage) : (c.setStage n s).phase m = c.phase m := by
  simp [phase_setStage, hm]

theorem phase_congr (h : c.calls = c'.calls) (n : Nat) : c.phase n = c'.phase n := by
  unfold phase; rw [h]

theorem Tells.of_fades (h : c.Tells n p) (hf : p.Fades p') : c.Tells n p' := by
  have hi : ∀ {id : String}, (∀ i ∈ c.journal, i.caller? ≠ some n) →
      .registered n id ∉ c.journal := fun hn hm => hn _ hm rfl
  cases hf with
  | refl => exact h
  | ended r => exact fun id hm => absurd hm (hi h)
  | dropped => exact ⟨fun id hm => absurd hm (hi h), fun reply hm => h _ hm rfl⟩
  | closed r => exact h.1
  | given r => exact ⟨fun id hm => (h.1 id hm).1, h.2⟩

/-- A waiter, its mailbox and its slot, as the client goes on. -/
theorem Waits.congr (h : c.Waits n w) (hm : ∀ i ∈ c.journal, i ∈ c'.journal)
    (hg : Registered c'.journal n w.id ↔ Registered c.journal n w.id)
    (hr : ∀ r, Resolved c'.journal n w.id r ↔ Resolved c.journal n w.id r)
    (hb : c'.correlator.mailbox w.ticket = c.correlator.mailbox w.ticket)
    (hl : c'.correlator.slots.lookup w.id = c.correlator.slots.lookup w.id)
    (hj : c'.job n = c.job n) : c'.Waits n w := by
  obtain ⟨hn, hx⟩ := h
  refine ⟨hm _ hn, ?_⟩
  rw [hb]
  have ht : c'.targetFor n = c.targetFor n := by unfold targetFor; rw [hj]
  generalize c.correlator.mailbox w.ticket = b at hx
  cases hx with
  | vacant hg' hl' hr' => exact .vacant (hg.2 hg') (by rw [hl, hl', ht]) fun r => mt (hr r).1 (hr' r)
  | filled hg' hl' hr' =>
    exact .filled (mt hg.1 hg') (by rw [hl, hl']) fun r => (hr r).trans (hr' r)
  | orphaned hg' hl' hr' hc =>
    exact .orphaned (mt hg.1 hg') (by rw [hl, hl']) (fun r => mt (hr r).1 (hr' r)) (hm _ hc)

/-- What is known of a call whose request is under way, as the client goes on: what has been written
down about the call is the same, and its waiter has its mailbox. -/
theorem Tells.of_waits (h : c.Tells n p)
    (hp : (∃ waiter, p = .sending waiter) ∨ ∃ w due, p = .waiting w due)
    (hm : ∀ {i : Incident}, i.caller? = some n → (i ∈ c'.journal ↔ i ∈ c.journal))
    (hw : ∀ w, p.waiter? = some w → c.Waits n w → c'.Waits n w) (hf : c'.config = c.config) :
    c'.Tells n p := by
  rcases hp with ⟨waiter, rfl⟩ | ⟨w, due, rfl⟩
  · obtain ⟨hx, hn, hs, hu, ha⟩ := h
    exact ⟨fun w hi => hw w hi (hx w hi), fun hi id => mt (hm rfl).1 (hn hi id),
      fun t => mt (hm rfl).1 (hs t), fun e => mt (hm rfl).1 (hu e), fun r => mt (hm rfl).1 (ha r)⟩
  · obtain ⟨hx, ⟨t, hs, hd⟩, hu, ha⟩ := h
    exact ⟨hw w rfl hx, ⟨t, (hm rfl).2 hs, by rw [hf]; exact hd⟩, fun e => mt (hm rfl).1 (hu e),
      fun r => mt (hm rfl).1 (ha r)⟩

/-! ### What does not touch a call -/

/-- Nothing that is known of a call has changed: what has been written down is about others, and its
mailbox and the slot of its id are the same. -/
structure Same (c c' : Client) (n : Nat) (waiter : Option Waiter) : Prop where
  journal : ∃ l, c'.journal = c.journal ++ l ∧
    ∀ i ∈ l, i.caller? ≠ some n ∧ ∀ id, Registered c.journal n id → ¬ i.Ends id
  job : c'.job n = c.job n
  config : c'.config = c.config
  now : c.now ≤ c'.now
  mailbox : ∀ w, waiter = some w → c'.correlator.mailbox w.ticket = c.correlator.mailbox w.ticket
  lookup : ∀ w, waiter = some w →
    c'.correlator.slots.lookup w.id = c.correlator.slots.lookup w.id

namespace Same

variable {waiter : Option Waiter}

theorem mem_iff (h : Same c c' n waiter) {i : Incident} (hi : i.caller? = some n) :
    i ∈ c'.journal ↔ i ∈ c.journal := by
  obtain ⟨l, hj, hl⟩ := h.journal
  rw [hj, List.mem_append]
  exact ⟨fun hm => hm.resolve_right fun hm => (hl i hm).1 hi, .inl⟩

theorem mem_of_mem (h : Same c c' n waiter) {i : Incident} (hi : i ∈ c.journal) :
    i ∈ c'.journal := by
  obtain ⟨l, hj, -⟩ := h.journal
  rw [hj]
  exact List.mem_append_left _ hi

theorem harmless {l : List Incident} {j : List Incident} {id : String}
    (hl : ∀ i ∈ l, i.caller? ≠ some n ∧ ∀ id, Registered j n id → ¬ i.Ends id) :
    ∀ i ∈ l, i ≠ .registered n id ∧ (Registered j n id → ¬ i.Ends id) := fun i hi =>
  ⟨fun h => (hl i hi).1 (h ▸ rfl), (hl i hi).2 id⟩

theorem registered_iff (h : Same c c' n waiter) (id : String) :
    Registered c'.journal n id ↔ Registered c.journal n id := by
  obtain ⟨l, hj, hl⟩ := h.journal
  rw [hj]
  exact registered_append (harmless hl)

theorem resolved_iff (h : Same c c' n waiter) (id : String) (r : Reply) :
    Resolved c'.journal n id r ↔ Resolved c.journal n id r := by
  obtain ⟨l, hj, hl⟩ := h.journal
  rw [hj]
  exact resolved_append (harmless hl)

theorem waits (h : Same c c' n waiter) (hw : waiter = some w) (hc : c.Waits n w) :
    c'.Waits n w :=
  hc.congr (fun _ => h.mem_of_mem) (h.registered_iff _) (h.resolved_iff _) (h.mailbox w hw)
    (h.lookup w hw) h.job

theorem verdict (h : Same c c' n waiter) {id : String} {r : Except Failure Outcome}
    (hv : c.Verdict n id r) : c'.Verdict n id r := by
  cases hv with
  | answered hs ha hr =>
    rw [← h.job]
    refine .answered ((h.mem_iff rfl).2 hs) (fun r => ?_) fun r => ?_
    · rw [h.mem_iff rfl]; exact ha r
    · rw [h.resolved_iff]; exact hr r
  | unsent he hu hs ha =>
    rw [← h.job]
    refine .unsent he ((h.mem_iff rfl).2 hu) (fun t => ?_) fun r => ?_
    · rw [h.mem_iff rfl]; exact hs t
    · rw [h.mem_iff rfl]; exact ha r
  | late hs ha hd hr =>
    rw [← h.config]
    refine .late ((h.mem_iff rfl).2 hs) (fun r => ?_) ?_ fun r => ?_
    · rw [h.mem_iff rfl]; exact ha r
    · rw [h.config]; exact Nat.le_trans hd h.now
    · rw [h.resolved_iff]; exact hr r
  | cut hs ha hr hc =>
    refine .cut ((h.mem_iff rfl).2 hs) (fun r => ?_) (fun r => ?_) (h.mem_of_mem hc)
    · rw [h.mem_iff rfl]; exact ha r
    · rw [h.resolved_iff]; exact hr r

/-- What is known of a call stays known. -/
theorem tells (h : Same c c' n p.waiter?) (ht : c.Tells n p) : c'.Tells n p := by
  cases p with
  | idle =>
    obtain ⟨l, hj, hl⟩ := h.journal
    intro i hi
    rw [hj] at hi
    rcases List.mem_append.1 hi with hi | hi
    · exact ht i hi
    · exact (hl i hi).1
  | sending waiter =>
    exact ht.of_waits (.inl ⟨waiter, rfl⟩) h.mem_iff (fun w hw => h.waits hw) h.config
  | waiting w due =>
    exact ht.of_waits (.inr ⟨w, due, rfl⟩) h.mem_iff (fun w hw => h.waits hw) h.config
  | failing r =>
    refine ⟨fun id hm => ?_, fun reply => ?_⟩
    · obtain ⟨hg, hv⟩ := ht.1 id ((h.mem_iff rfl).1 hm)
      exact ⟨by rw [h.registered_iff]; exact hg, h.verdict hv⟩
    · rw [h.mem_iff rfl]; exact ht.2 reply
  | ended r =>
    intro id hm
    obtain ⟨hg, hv⟩ := ht id ((h.mem_iff rfl).1 hm)
    exact ⟨by rw [h.registered_iff]; exact hg, h.verdict hv⟩
  | dropped =>
    refine ⟨fun id hm => ?_, fun reply => ?_⟩
    · rw [h.registered_iff]; exact ht.1 id ((h.mem_iff rfl).1 hm)
    · rw [h.mem_iff rfl]; exact ht.2 reply

theorem refl (c : Client) (n : Nat) (waiter : Option Waiter) : Same c c n waiter :=
  ⟨⟨[], by simp, by simp⟩, rfl, rfl, Nat.le_refl _, fun _ _ => rfl, fun _ _ => rfl⟩

theorem trans (h : Same c d n waiter) (h' : Same d c' n waiter) : Same c c' n waiter := by
  obtain ⟨l, hj, hl⟩ := h.journal
  obtain ⟨l', hj', hl'⟩ := h'.journal
  refine ⟨⟨l ++ l', by rw [hj', hj, List.append_assoc], fun i hi => ?_⟩, h'.job.trans h.job,
    h'.config.trans h.config, Nat.le_trans h.now h'.now,
    fun w hw => (h'.mailbox w hw).trans (h.mailbox w hw),
    fun w hw => (h'.lookup w hw).trans (h.lookup w hw)⟩
  rcases List.mem_append.1 hi with hi | hi
  · exact hl i hi
  · exact ⟨(hl' i hi).1, fun id hr => (hl' i hi).2 id ((h.registered_iff id).2 hr)⟩

theorem of_eq (hj : c'.journal = c.journal) (hn : c'.job n = c.job n)
    (hf : c'.config = c.config) (ht : c.now ≤ c'.now) (hc : c'.correlator = c.correlator) :
    Same c c' n waiter :=
  ⟨⟨[], by simpa using hj, by simp⟩, hn, hf, ht, fun _ _ => by rw [hc], fun _ _ => by rw [hc]⟩

theorem record (h : Same c c' n waiter) {i : Incident} (hi : i.caller? ≠ some n)
    (he : ∀ id, Registered c.journal n id → ¬ i.Ends id) : Same c (c'.record i) n waiter :=
  h.trans ⟨⟨[i], rfl, by simpa using ⟨hi, fun id hg => he id ((h.registered_iff id).1 hg)⟩⟩, rfl, rfl,
    Nat.le_refl _, fun _ _ => rfl, fun _ _ => rfl⟩

theorem yield (h : Same c c' n waiter) : Same c c'.yield n waiter :=
  h.trans (.of_eq rfl rfl rfl (Nat.le_refl _) rfl)

theorem setStage (h : Same c c' n waiter) (m : Nat) (s : Stage) :
    Same c (c'.setStage m s) n waiter :=
  h.trans (.of_eq rfl (job_setStage c' m n s) rfl (Nat.le_refl _) rfl)

end Same

/-! ### Moves beside the point -/

/-- A move after which nobody is nearer to a reply: it writes down nothing that matters and leaves
the registry alone, and at most calls without a waiter end or are given up. -/
structure Aside (c c' : Client) : Prop where
  journal : ∃ l, c'.journal = c.journal ++ l ∧ ∀ i ∈ l, i.caller? = none ∧ ∀ id, ¬ i.Ends id
  correlator : c'.correlator = c.correlator
  config : c'.config = c.config
  now : c.now ≤ c'.now
  nextId : c.write.nextId ≤ c'.write.nextId
  job : ∀ n, c.calls[n]? ≠ none → c'.job n = c.job n
  phase : ∀ n, (c.phase n).Fades (c'.phase n)

theorem phase_eq_idle (h : c.calls[n]? = none) : c.phase n = .idle := by
  unfold phase; rw [h]; rfl

namespace Aside

theorem mem_iff (h : Aside c c') {i : Incident} (hi : i.caller? = some n) :
    i ∈ c'.journal ↔ i ∈ c.journal := by
  obtain ⟨l, hj, hl⟩ := h.journal
  rw [hj, List.mem_append]
  refine ⟨fun hm => hm.resolve_right fun hm => ?_, .inl⟩
  rw [(hl i hm).1] at hi
  cases hi

theorem tells (h : Aside c c') (ht : c.Tells n (c.phase n)) : c'.Tells n (c'.phase n) := by
  refine Tells.of_fades ?_ (h.phase n)
  cases hc : c.calls[n]? with
  | none =>
    rw [phase_eq_idle hc] at ht ⊢
    obtain ⟨l, hj, hl⟩ := h.journal
    intro i hi hn
    exact ht i ((h.mem_iff hn).1 hi) hn
  | some call =>
    obtain ⟨l, hj, hl⟩ := h.journal
    refine Same.tells ⟨⟨l, hj, fun i hi => ?_⟩, h.job n (by simp [hc]), h.config, h.now,
      fun _ _ => by rw [h.correlator], fun _ _ => by rw [h.correlator]⟩ ht
    exact ⟨by simp [(hl i hi).1], fun id _ => (hl i hi).2 id⟩

theorem correlated (h : Aside c c') (hc : Correlated c) : Correlated c' where
  tells n := h.tells (hc.tells n)
  numbered n id hm := by
    obtain ⟨k, hk, hid⟩ := hc.numbered n id ((h.mem_iff rfl).1 hm)
    exact ⟨k, Nat.lt_of_lt_of_le hk h.nextId, hid⟩
  sameId hm hm' := hc.sameId ((h.mem_iff rfl).1 hm) ((h.mem_iff rfl).1 hm')
  sameCall hm hm' := hc.sameCall ((h.mem_iff rfl).1 hm) ((h.mem_iff rfl).1 hm')
  slots hl := by
    rw [h.correlator] at hl
    obtain ⟨n, w, hw, hi, ht⟩ := hc.slots hl
    exact ⟨n, w, by rw [(h.phase n).waiter?, hw], hi, ht⟩
  apart hw hw' ht := by
    rw [(h.phase _).waiter?] at hw hw'
    exact hc.apart hw hw' ht

theorem of_eq (hj : c'.journal = c.journal) (hk : c'.correlator = c.correlator)
    (hf : c'.config = c.config) (hn : c.now ≤ c'.now) (hi : c.write.nextId ≤ c'.write.nextId)
    (hc : c'.calls = c.calls) : Aside c c' :=
  ⟨⟨[], by simpa using hj, by simp⟩, hk, hf, hn, hi,
    fun n _ => job_congr hc n, fun n => phase_congr hc n ▸ .refl _⟩

theorem of_core (h : c.core = c'.core) : Aside c c' := by
  have hj := congrArg Client.journal h
  have hk := congrArg Client.correlator h
  have hf := congrArg Client.config h
  have hn := congrArg Client.now h
  have hi := congrArg (fun d : Client => d.write.nextId) h
  exact .of_eq hj.symm hk.symm hf.symm (Nat.le_of_eq hn) (Nat.le_of_eq hi) (calls_eq h).symm

theorem setStage {s s' : Stage} (h : Aside c d) (hs : c.stage n = s) (hd : s ≠ .dropped)
    (hf : s.phase.Fades s'.phase) : Aside c (d.setStage n s') where
  journal := h.journal
  correlator := h.correlator
  config := h.config
  now := h.now
  nextId := h.nextId
  job i hi := (job_setStage d n i s').trans (h.job i hi)
  phase i := by
    rw [phase_setStage]
    split
    next hx => rw [hx.1, phase_of_stage hs hd]; exact hf
    next => exact h.phase i

theorem addCall (c : Client) (job : Job) : Aside c (c.addCall job) := by
  refine ⟨⟨[], (List.append_nil _).symm, by simp⟩, rfl, rfl, Nat.le_refl _, Nat.le_refl _,
    fun n hn => ?_, fun n => ?_⟩
  · have hl : n < c.calls.length := by
      refine Nat.lt_of_not_le fun hl => hn ?_
      rw [List.getElem?_eq_none hl]
    unfold Client.job Client.addCall
    rw [List.getElem?_append_left hl]
  · unfold Client.phase Client.addCall
    rw [List.getElem?_append]
    split
    · exact .refl _
    next hl =>
      rw [List.getElem?_eq_none (Nat.le_of_not_lt hl)]
      cases n - c.calls.length <;> exact .refl _

theorem refl (c : Client) : Aside c c := .of_eq rfl rfl rfl (Nat.le_refl _) (Nat.le_refl _) rfl

end Aside

end Client

end DocWire
