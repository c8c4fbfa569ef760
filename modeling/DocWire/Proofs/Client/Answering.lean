import DocWire.Proofs.Client.Listening
import DocWire.Proofs.Client.Refusing
import DocWire.Proofs.Message.Answers

/-! # Operations and the replies routed to them

A reply that is routed while the request of an operation is registered decides what the operation comes
to, whatever is in it: once its frame is out, the operation ends with what the reply says, at the
latest when it has its next turn (`Possible.interprets`). Nothing of this touches the connection, and a
subscription whose reply is turned down has no route when its call ends. -/

namespace DocWire.Client

open DocWire.Correlator (Waiter)

variable {c : Client} {config : Config} {n : Nat} {op : Operation} {id : String} {reply : Reply}
  {e : Failure} {w : Waiter} {due : Nat}

/-- An operation has ended with what a reply says. If it has opened no subscription, there is no route
under its id. -/
structure Answered (c : Client) (n : Nat) (op : Operation) (id : String) (reply : Reply) :
    Prop where
  stage : c.stage n = .done ((op.answer id reply).map .result)
  unrouted : op.isSubscribe = true → (∀ r, op.answer id reply ≠ .ok r) → c.routes.get? id = none

/-! ### The end of the wait -/

/-- A subscribe call that ends with a failure is left without its subscription. -/
theorem Lawful.not_subscribed (hl : Lawful c) (hj : c.job n = .operation op)
    (ho : op.isSubscribe = true) (hs : c.stage n = .done (.error e)) :
    ¬ Subscribed c.journal n id := by
  obtain ⟨text, fails, rfl⟩ := Operation.isSubscribe_iff.1 ho
  exact (Fruitless.ended hs nofun).not_subscribed hl.kept ⟨text, fails, hj⟩

/-- **An operation that has obtained a reply has ended with what it says.** -/
theorem Lawful.answered (hl : Lawful c) (hj : c.job n = .operation op)
    (hg : .registered n id ∈ c.journal) (ha : .answered n reply ∈ c.journal) :
    c.Answered n op id reply := by
  have hs : c.stage n = .done ((op.answer id reply).map .result) := by
    have hx := (hl.correlated.obtained hg ha).2
    rwa [hj] at hx
  refine ⟨hs, fun ho hn => ?_⟩
  cases hr : op.answer id reply with
  | ok r => exact absurd hr (hn r)
  | error e =>
    rw [hr] at hs
    refine Option.eq_none_iff_forall_ne_some.2 fun target ht => ?_
    obtain ⟨m, -, hm⟩ := (hl.feeding.routes id target).1 ht
    cases hl.correlated.sameCall hm.mem hg
    exact hl.not_subscribed hj ho hs hm

/-- Who waits with a reply in its mailbox obtains it in its next turn. -/
theorem answered_turn (hs : c.stage n = .await w due)
    (hm : c.correlator.mailbox w.ticket = .filled reply) :
    .answered n reply ∈ (c.turn (.call n)).journal := by
  let d : Client := { c with ready := c.ready.erase (.call n) }
  have hr : c.turn (.call n) = d.endWait n w (.ok reply) := by
    have hd : d.stage n = .await w due := hs
    have ho : d.correlator.outcome? w (due ≤ d.now) d.config.requestTimeout = some (.ok reply) := by
      unfold Correlator.outcome?
      rw [show d.correlator.mailbox w.ticket = .filled reply from hm]
    change d.runCall n = _
    unfold runCall
    rw [hd]
    dsimp only
    unfold awaitReply
    rw [ho]
  have hj : (d.endWait n w (.ok reply)).journal =
      ((d.clearTimer n).conclude n w (.ok reply)).journal := journal_eq (core_wakeDecided _)
  rw [hr, hj]
  unfold conclude
  dsimp only
  split <;> simp [reject, setStage]

/-! ### The connection -/

theorem ne_replyOutcome (he : e.endsConnection = true ∨ IsSendFault e) (job : Job) (id : String)
    (reply : Reply) : replyOutcome job id reply ≠ .error e := by
  intro hr
  have ha := isAnswer_of_replyOutcome hr
  rcases he with he | he
  · exact nomatch ha.isLocal.endsConnection.symm.trans he
  · rcases he with ⟨fault, rfl⟩ | rfl | ⟨fault, rfl⟩ <;> exact ha

/-- The sending of a call that closes the connection before it ends has failed. -/
theorem Lawful.exists_fault (hl : Lawful c) (hj : c.job n = .operation op)
    (hr : Resolved c.journal n id reply) (hx : IsClosingStage (c.stage n)) :
    ∃ e, IsSendFault e ∧ (c.phase n).Settles (.error e) := by
  have ht := hl.correlated.tells n
  obtain ⟨k, hs⟩ : ∃ k, c.stage n = .closeLock k ∨ c.stage n = .closeShutdown k := by
    cases hst : c.stage n <;> rw [hst] at hx <;>
      first | exact ⟨_, .inl rfl⟩ | exact ⟨_, .inr rfl⟩ | exact hx.elim
  have hp : c.phase n = (Stage.closeLock k).phase := by
    rcases hs with hs | hs
    · exact phase_of_stage hs nofun
    · rw [phase_of_stage hs nofun]
      cases k <;> rfl
  rw [hp] at ht ⊢
  cases k with
  | join => exact absurd rfl (ht _ hr.mem)
  | finish r =>
    obtain ⟨hv, hn⟩ := ht
    cases (hv id hr.mem).2 with
    | answered _ ha _ => exact absurd ((ha _).2 rfl) (hn _)
    | unsent he _ _ _ =>
      rw [hj]
      exact ⟨_, he, rfl⟩
    | late _ _ _ hr' => exact absurd hr (hr' reply)
    | cut _ _ hr' _ => exact absurd hr (hr' reply)

/-- **The turn in which an operation obtains a reply leaves the connection as it is.** -/
theorem Possible.life_answered (h : Possible config c) (hj : c.job n = .operation op)
    (hr : Resolved c.journal n id reply) (ha : .answered n reply ∈ (c.turn (.call n)).journal) :
    (c.turn (.call n)).life = c.life := by
  have hl := h.lawful
  have hc : c.Onward (c.turn (.call n)) := (Onward.refl c).turn _
  have hd := (hl.onward hc).correlated.obtained (hc.mem_journal hr.mem) ha
  have hp := phase_of_stage hd.2 nofun
  -- it has not ended in any other way
  have hne : ∀ {e}, ((c.turn (.call n)).phase n).Settles (.error e) →
      ¬ (e.endsConnection = true ∨ IsSendFault e) := fun hx he => by
    rw [hp] at hx
    exact ne_replyOutcome he _ _ _ hx
  have hs : c.session ≠ none := by
    refine (hl.closes.begun fun hu => ?_).1
    obtain ⟨before, f, since, hjr, -⟩ := hr
    have hnil := (h.unmade hu).received
    rw [received, hjr] at hnil
    simp [Incident.frame?] at hnil
  have hx : ¬ IsClosingStage (c.stage n) := fun hx => by
    obtain ⟨e, he, hs⟩ := hl.exists_fault hj hr hx
    exact hne (hc.settles hs) (.inr he)
  rcases hl.fares_turn hs (fun _ => by simp [hj]) hx with hsp | ⟨e, he, -, hb⟩
  · exact life_of_keel hsp.keel
  · have hlt : n < c.calls.length := by
      by_contra hge
      simp [job, List.getElem?_eq_none (Nat.le_of_not_lt hge)] at hj
    rw [hc.job_eq hlt, hj] at hb
    exact absurd (.inl he) (hne hb)

/-! ### Replies and what comes of them -/

/-- What comes of a reply that has been routed to an operation. Once its frame is out, the operation
ends with what the reply says, if not at once then in its next turn, unless it is given up before
that; and the turn in which it obtains the reply leaves the connection as it is. -/
structure Obeys (c : Client) (n : Nat) (op : Operation) (id : String) (reply : Reply) : Prop where
  returns : ∀ t, .sent n t ∈ c.journal → c.stage n ≠ .dropped →
    c.Answered n op id reply ∨ .call n ∈ c.ready ∧ (c.turn (.call n)).Answered n op id reply
  life : .answered n reply ∈ (c.turn (.call n)).journal → (c.turn (.call n)).life = c.life

theorem Possible.obeys (h : Possible config c) (hj : c.job n = .operation op)
    (hr : Resolved c.journal n id reply) : c.Obeys n op id reply := by
  refine ⟨fun t hs hd => ?_, h.life_answered hj hr⟩
  rcases h.lawful.correlated.obtains hr hs hd with ha | ⟨w, due, hst, hm⟩
  · exact .inl (h.lawful.answered hj hr.mem ha)
  · have hc : c.Onward (c.turn (.call n)) := (Onward.refl c).turn _
    have hn : n < c.calls.length := lt_of_stage_ne_dropped hd
    refine .inr ⟨h.alert.woken n w due nofun hst (by rw [hm]; nofun), ?_⟩
    exact (h.lawful.onward hc).answered ((hc.job_eq hn).trans hj) (hc.mem_journal hr.mem)
      (answered_turn hst hm)

/-- How a client interprets replies. A frame leaves the connection as it is, whatever is in it. The
reply that is routed to an operation while it is registered decides what becomes of the operation,
each outcome stands for one kind of reply, in either encoding, and whoever has asked for a document
finds the one that the frame carries. -/
structure Interprets (c : Client) : Prop where
  calm : ∀ f, (c.route f).life = c.life
  obeys : ∀ {n op id reply}, c.job n = .operation op → Resolved c.journal n id reply →
    c.Obeys n op id reply
  understands : ∀ (op : Operation) (id : String) (reply : Reply), op.Understands id reply
  carried : ∀ {d : Document} {encoding : Encoding} {id : String} {f : Frame},
    d.Carried encoding id f.payload → f.header.encoding? = some encoding →
    f.reply? = some (id, ⟨encoding, f.payload⟩) ∧
      ∀ {op : Operation}, op.conversion? = some ResultType.document →
        op.answer id ⟨encoding, f.payload⟩ = .ok (.document d)

/-- **Replies are interpreted completely and exclusively.** -/
theorem Possible.interprets (h : Possible config c) : c.Interprets where
  calm f := life_of_keel (keel_route c f)
  obeys hj hr := h.obeys hj hr
  understands := Operation.understands
  carried hd he := ⟨hd.reply?_eq he, Operation.answer_of_carried hd⟩

/-- A document as it has been stored. -/
def stored : Document :=
  ⟨"7", "users", .object [("name", .text "\u00fc"), ("seen", .array [.int (-1), .null])],
    "2024-01-01", ""⟩

/-- The reply to the first request, with that document in JSON. -/
def receipt : List UInt8 := Encoding.json.print (ServerMessage.result "1" stored.toValue).toValue

/-- A client that has inserted a document, in a session with the other encoding. -/
def filed : Client :=
  (initial .default).performAll
    [.start .connect, .feed [.chunk ([0, 1, 1] ++ List.replicate 16 7)],
      .start (.operation (.insert "users" (some (.object [])))),
      .feed [.chunk ([0, 0, 0, UInt8.ofNat (receipt.length + 2), 2, 2] ++ receipt)]]

theorem mem_sent_of_any {j : List Incident} (h : (j.any fun
    | .sent n' _ => n' == n
    | _ => false) = true) : ∃ t, .sent n t ∈ j := by
  obtain ⟨i, hi, hb⟩ := List.any_eq_true.1 h
  split at hb
  next n' t =>
    rw [beq_iff_eq.1 hb] at hi
    exact ⟨t, hi⟩
  next => cases hb

theorem exists_job_insert (h : (match c.job n with
    | .operation (.insert _ _) => true
    | _ => false) = true) : ∃ collection body, c.job n = .operation (.insert collection body) := by
  split at h
  next collection body hj => exact ⟨collection, body, hj⟩
  next => cases h

theorem carried_receipt : stored.Carried .json "1" receipt where
  proper := by decide +kernel
  exact := by decide +kernel
  depth := by decide +kernel
  size := by decide +kernel
  print := ⟨stored.toValue, ⟨_, rfl, rfl, .refl _⟩, rfl⟩

theorem interprets_filed :
    filed.stage 1 = .done (.ok (.result (.document stored))) ∧
    misled.stage 1 = .done (.error (.decodeFailed .malformed)) ∧ misled.routes.get? "1" = none := by
  have h : Possible .default filed := (reachable_performAll _ _).possible
  have h' : Possible .default misled := (reachable_performAll _ _).possible
  have resolved : ∀ {c : Client} (reply), Possible .default c → .registered 1 "1" ∈ c.journal →
      .answered 1 reply ∈ c.journal → Resolved c.journal 1 "1" reply := fun reply h hg ha =>
    ((h.lawful.correlated.obtained hg ha).1 reply).2 rfl
  have returned : ∀ {c : Client} {op reply}, Possible .default c → c.job 1 = .operation op →
      Resolved c.journal 1 "1" reply → (∃ t, .sent 1 t ∈ c.journal) →
      (match c.stage 1 with | .dropped => false | _ => true) = true → c.ready = [] →
      c.Answered 1 op "1" reply := by
    rintro c op reply h hj hr ⟨t, ht⟩ hd hready
    rcases (h.interprets.obeys hj hr).returns t ht (fun hx => by rw [hx] at hd; cases hd) with
      ha | ⟨hx, -⟩
    · exact ha
    · rw [hready] at hx
      cases hx
  refine ⟨?_, ?_⟩
  · obtain ⟨collection, body, hj⟩ := exists_job_insert (c := filed) (n := 1) (by decide +kernel)
    have hr := resolved ⟨.json, receipt⟩ h (mem_registered_of_any (by decide +kernel))
      (mem_answered_of_any (by decide +kernel))
    have ha := returned h hj hr (mem_sent_of_any (by decide +kernel)) (by decide +kernel)
      (by decide +kernel)
    have hx : (Operation.insert collection body).answer "1" ⟨.json, receipt⟩ =
        .ok (.document stored) :=
      (h.interprets.carried (f := ⟨⟨0, 2, 2⟩, receipt⟩) carried_receipt rfl).2 rfl
    rw [ha.stage, hx]
    rfl
  · obtain ⟨text, fails, hj⟩ : misled.Subscribes 1 := subscribes_iff.2 (by decide +kernel)
    have hr := resolved ⟨.messagePack, [0x91, 0xa1, 0x31]⟩ h'
      (mem_registered_of_any (by decide +kernel)) (mem_answered_of_any (by decide +kernel))
    have ha := returned h' hj hr (mem_sent_of_any (by decide +kernel)) (by decide +kernel)
      (by decide +kernel)
    have hm : (⟨.messagePack, [0x91, 0xa1, 0x31]⟩ : Reply).message? = none :=
      Option.isNone_iff_eq_none.1 (by decide +kernel)
    have hx : (Operation.subscribe text fails).answer "1" ⟨.messagePack, [0x91, 0xa1, 0x31]⟩ =
        .error (.decodeFailed .malformed) := Operation.Says.answer_eq (.unread hm)
    refine ⟨?_, ha.unrouted rfl (by rw [hx]; nofun)⟩
    rw [ha.stage, hx]
    rfl

end DocWire.Client
