import DocWire.Proofs.Client.Outgoing
import DocWire.Proofs.Client.Replies
import DocWire.Proofs.Frame.Grammar

/-! # The outgoing stream holds whole frames

Behind the request of the handshake the peer has taken whole frames of messages that calls have
built, in the order in which these had the write path, and a proper part of one more at most
(`Delivers`). If the call that was sending that part has let go of the write path, nothing goes out
any more (`Cut`): the writing half of the stream has left the write path for good, so whoever sets
out to send fails at once. -/

namespace DocWire

open DocWire.Correlator (Waiter)

/-- No frame gets out, and whoever sets out to send fails. -/
structure Hushed (l : List Incident) : Prop where
  unsent : ∀ {n m}, .sending n m ∈ l → ∃ e, .unsent n e ∈ l
  silent : ∀ {n t}, .sent n t ∉ l

theorem Hushed.nil : Hushed [] := ⟨nofun, nofun⟩

theorem Hushed.append {l l' : List Incident} (h : Hushed l) (h' : Hushed l') : Hushed (l ++ l') where
  unsent hi := by
    rcases List.mem_append.1 hi with hi | hi
    · obtain ⟨e, he⟩ := h.unsent hi
      exact ⟨e, List.mem_append_left _ he⟩
    · obtain ⟨e, he⟩ := h'.unsent hi
      exact ⟨e, List.mem_append_right _ he⟩
  silent hi := (List.mem_append.1 hi).elim h.silent h'.silent

theorem hushed_of_not_ofSending {l : List Incident} (h : ∀ i ∈ l, ¬ i.OfSending) : Hushed l :=
  ⟨fun hi => absurd trivial (h _ hi), fun hi => h _ hi trivial⟩

/-- What a call that makes a request can have come to while its frame is not out. -/
inductive Stage.Unmet : Stage → Prop
  | fresh : Unmet .fresh
  | lock : Unmet .lock
  | send (s : Sending) : Unmet (.send s)
  | closeLock (e : Failure) : Unmet (.closeLock (.finish (.error e)))
  | closeShutdown (e : Failure) : Unmet (.closeShutdown (.finish (.error e)))
  | failed (e : Failure) : Unmet (.done (.error e))
  | dropped : Unmet .dropped

namespace Client

variable {c c' c₁ d : Client} {n : Nat} {m : ClientMessage} {waiter : Option Waiter}
  {op : Operation} {config : Config}

/-! ### After the writing half has gone -/

/-- Once the writing half is past the write path, moves leave the outgoing stream alone. -/
theorem Move.rests (hm : c.Move c') (hg : Guarded c) (hp : c.write.half.IsPast) : c.Rests c' := by
  obtain ⟨hunused, hunsplit, hheld⟩ := hp.ne
  cases hm.affects hg with
  | rests hr => exact hr
  | connect hu hb => exact absurd hu hunused
  | shake hs hr => exact absurd (hg.half_of_handshake hs) hunsplit
  | establish hs hr => exact absurd (hg.half_of_handshake hs) hunsplit
  | miss peer hs => exact absurd (hg.half_of_handshake hs) hunsplit
  | begin he hf hw => exact absurd hw hheld
  | write hs hb => exact absurd (hg.half_of_send hs) hheld
  | retire hs hr => exact absurd (hg.half_of_send hs) hheld

theorem Enters.eq_sending (he : c.Enters n m waiter c₁) {l : List Incident}
    (hj : c₁.journal = c.journal ++ l) {i : Incident} (hi : i ∈ l) (hs : i.OfSending) :
    i = .sending n m := by
  cases he with
  | @request op w correlator hs' hh hj' hr =>
    have hl : c.journal ++ [.registered n w.id, .sending n (op.message w.id)] = c.journal ++ l :=
      (List.append_assoc c.journal [_] [_]).symm.trans hj
    rw [← List.append_cancel_left hl] at hi
    rcases List.mem_cons.1 hi with rfl | hi
    · exact absurd hs id
    · exact List.mem_singleton.1 hi
  | @farewell id hs' hh hj' =>
    have hl : c.journal ++ [.sending n (.unsubscribe id)] = c.journal ++ l := hj
    rw [← List.append_cancel_left hl] at hi
    exact List.mem_singleton.1 hi

/-- Then no frame gets out either, and whoever sets out to send fails. -/
theorem Move.hushes (hm : c.Move c') (hg : Guarded c) (hp : c.write.half.IsPast) :
    ∃ l, c'.journal = c.journal ++ l ∧ Hushed l := by
  obtain ⟨-, -, hheld⟩ := hp.ne
  obtain ⟨l, hj, ha⟩ := hm.adds
  refine ⟨l, hj, ?_⟩
  cases ha with
  | aside hl => exact hushed_of_not_ofSending hl
  | begun he hw hj' => exact absurd hw hheld
  | sent hs => exact absurd (hg.half_of_send hs) hheld
  | unsent hs hl => exact absurd (hg.half_of_send hs) hheld
  | @failed n m waiter c₁ e l l' he hj' hl =>
    have hsend : ∀ {i}, i ∈ l ++ .unsent n e :: l' → i.OfSending →
        i = .sending n m ∨ i = .unsent n e := by
      intro i hi hs
      rcases List.mem_append.1 hi with hi | hi
      · exact .inl (he.eq_sending hj' hi hs)
      · exact (List.mem_cons.1 hi).elim .inr fun hi => absurd hs (hl i hi)
    constructor
    · intro n' m' hi
      rcases hsend hi trivial with hx | hx
      · cases hx
        exact ⟨e, by simp⟩
      · cases hx
    · intro n' t hi
      rcases hsend hi trivial with hx | hx
      · cases hx
      · cases hx

/-- What stays so from here on, once the writing half is past the write path. -/
theorem Guarded.onward_past (hg : Guarded c) (hp : c.write.half.IsPast) (hl : c.Onward c') :
    c'.peer.taken = c.peer.taken ∧ ∃ l, c'.journal = c.journal ++ l ∧ Hushed l := by
  refine (hl.induct (P := fun d => Guarded d ∧ d.write.half.IsPast ∧
    d.peer.taken = c.peer.taken ∧ ∃ l, d.journal = c.journal ++ l ∧ Hushed l)
    (fun {d d'} hm ⟨hg, hp, ht, l, hj, hh⟩ => ?_)
    (fun job ⟨hg, hp, ht, hj⟩ => ⟨hg.addCall job, hp, ht, hj⟩)
    ⟨hg, hp, rfl, [], (List.append_nil _).symm, .nil⟩).2.2
  have hr := hm.rests hg hp
  obtain ⟨l', hj', hh'⟩ := hm.hushes hg hp
  refine ⟨hg.move hm, ?_, hr.taken.trans ht, l ++ l', ?_, hh.append hh'⟩
  · rcases hr.half with hx | hx
    · rw [hx]; exact hp
    · exact hx
  · rw [hj', hj, List.append_assoc]

/-! ### Requests whose frames are not out -/

/-- A request comes to nothing before its frame is out. -/
theorem unmet_move (hm : c.Move c') (hj : c.job n = .operation op) (h : (c.stage n).Unmet) :
    (c'.stage n).Unmet ∨ ∃ t, .sent n t ∈ c'.journal := by
  have stay : c'.calls = c.calls → (c'.stage n).Unmet := fun hc => by
    rwa [stage_congr hc]
  have go : ∀ {i : Nat} {s : Stage}, c'.calls = (c.setStage i s).calls → (i = n → s.Unmet) →
      (c'.stage n).Unmet := fun {i s} hc hs => by
    rw [stage_congr hc, stage_setStage]
    split
    next hi => exact hs hi.1.symm
    next => exact h
  have un : ∀ {i : Nat} {s : Stage}, c.stage i = s → i = n → s.Unmet := fun hs hi => by
    rw [← hs, hi]; exact h
  have other : ∀ {i : Nat} {job : Job}, c.job i = job → (∀ op, job ≠ .operation op) → i ≠ n :=
    fun hi hne he => hne op (by rw [← hi, he, hj])
  cases hm with
  | quiet hq => exact .inl (stay (calls_eq hq).symm)
  | tick | unroute | lineUpToClose | findGone | shut | endReader | keepReading | letGo =>
    exact .inl (stay rfl)
  | connect hs hj' hu hb => exact .inl (go rfl fun hi => absurd hi (other hj' nofun))
  | shake hs hr => exact .inl (go rfl fun hi => nomatch un hs hi)
  | establish hs hr => exact .inl (go rfl fun hi => nomatch un hs hi)
  | miss hs hr hp => exact .inl (go rfl fun _ => .failed _)
  | abandon hs => exact .inl (go rfl fun _ => .dropped)
  | refuse hs hj' hu hb => exact .inl (go rfl fun _ => .failed _)
  | turnDown hs hj' hf => exact .inl (go rfl fun _ => .failed _)
  | tooLate hs hj' hl => exact .inl (go rfl fun _ => .failed _)
  | leaveItAt hs hj' ho => exact .inl (go rfl fun hi => absurd (hi ▸ hj) (hj' op))
  | waitForReader hs hj' hl => exact .inl (go rfl fun hi => absurd hi (other hj' nofun))
  | joined hs hr => exact .inl (go rfl fun hi => nomatch un hs hi)
  | lineUp hs hl hj' => exact .inl (go rfl fun _ => .lock)
  | turnAway hs hh hj' hr => exact .inl (go rfl fun _ => .failed _)
  | pass hs hh hj' => exact .inl (go rfl fun hi => absurd (hi ▸ hj) (hj' op))
  | begin he hf hw =>
    exact .inl (go (congrArg (List.modify · _ _) he.calls_eq) fun _ => .send _)
  | write hs hb => exact .inl (go rfl fun _ => .send _)
  | @sent i s hs hr =>
    by_cases hi : i = n
    · exact .inr ⟨c.now, by simp [hi]⟩
    · exact .inl (go rfl fun hx => absurd hx hi)
  | @fail c₁ _ i waiter e hs he hf =>
    have hc : ((c₁.record (.unsent i e)).yield.forgetAny waiter).calls = c.calls :=
      (calls_forgetAny _ waiter).trans hs.calls_eq
    have hr : i = n → failedOutcome (c.job i) e = .error e := fun hi => by rw [hi, hj]; rfl
    cases hf with
    | ends _ =>
      exact .inl (go (congrArg (List.modify · _ _) hc) fun hi => by rw [hr hi]; exact .failed e)
    | closes _ =>
      exact .inl (go (congrArg (List.modify · _ _) hc) fun hi => by rw [hr hi]; exact .closeLock e)
  | @conclude i due w r hs hr =>
    obtain ⟨r', hq⟩ := outline_conclude c i w r
    exact .inl (go (calls_of_outline hq) fun hi => nomatch un hs hi)
  | dropIdle hs => exact .inl (go rfl fun _ => .dropped)
  | dropLine hs => exact .inl (go rfl fun _ => .dropped)
  | @dropSend i s hs =>
    exact .inl (go (congrArg (List.modify · _ _) (calls_forgetAny c s.waiter)) fun _ => .dropped)
  | dropWait hs => exact .inl (go rfl fun _ => .dropped)
  | dropShutdown hs => exact .inl (go rfl fun _ => .dropped)
  | @close t k hm hl =>
    cases t with
    | reader => exact .inl (stay rfl)
    | call i => exact .inl (go rfl fun hi => absurd hi (other hm.2.1 nofun))
  | @takeHalf t k hs hh hw =>
    cases t with
    | reader => exact .inl (stay rfl)
    | call i =>
      refine .inl (go rfl fun hi => ?_)
      cases un hs hi
      exact .closeShutdown _
  | @rest i k s hs hl hk =>
    refine .inl (go rfl fun hi => ?_)
    rcases hs with hs | hs
    · cases un hs hi
      cases hk
      exact .failed _
    · cases un hs hi
      cases hk
      exact .failed _
  | @route b hr ha f =>
    refine .inl (stay ?_)
    rw [calls_eq (core_route c f), calls_routed]
    rfl

theorem Possible.unmet (h : Possible config c) (hj : c.job n = .operation op) :
    (c.stage n).Unmet ∨ ∃ t, .sent n t ∈ c.journal := by
  refine h.induct (P := fun c => ∀ n op, c.job n = .operation op →
    (c.stage n).Unmet ∨ ∃ t, .sent n t ∈ c.journal) (fun {c c'} hm hx n op hj => ?_)
    (fun {c} job hx n op hj => ?_) (fun _ _ _ => .inl .dropped) n op hj
  · rw [hm.job_eq] at hj
    rcases hx n op hj with hu | ⟨t, ht⟩
    · exact unmet_move hm hj hu
    · obtain ⟨l, hl, -⟩ := hm.adds
      exact .inr ⟨t, hl ▸ List.mem_append_left l ht⟩
  · rcases stage_addCall c job n with hs | hs
    · rw [hs]
      by_cases hn : n < c.calls.length
      · refine hx n op (Eq.trans ?_ hj)
        unfold Client.job Client.addCall
        rw [List.getElem?_append_left hn]
      · refine .inl ?_
        have hd : c.stage n = .dropped := by
          simp [stage, List.getElem?_eq_none (Nat.le_of_not_lt hn)]
        rw [hd]
        exact .dropped
    · rw [hs]
      exact .inl .fresh

/-! ### Nothing goes out any more -/

/-- From here on the peer takes no byte more, no frame gets out, whoever sets out to send fails, and
no request whose frame is not out comes to a result. -/
structure Cut (c : Client) : Prop where
  taken : ∀ {c'}, c.Onward c' → c'.peer.taken = c.peer.taken
  hushed : ∀ {c'}, c.Onward c' → ∃ l, c'.journal = c.journal ++ l ∧ Hushed l
  failed : ∀ {c' n op r}, c.Onward c' → c'.job n = .operation op → (∀ t, .sent n t ∉ c.journal) →
    c'.stage n = .done r → ∃ e, r = .error e

theorem Possible.cut (h : Possible config c) (hp : c.write.half.IsPast) : c.Cut where
  taken hl := (h.guarded.onward_past hp hl).1
  hushed hl := (h.guarded.onward_past hp hl).2
  failed {c' n op r} hl hj hn hs := by
    obtain ⟨-, l, hjournal, hh⟩ := h.guarded.onward_past hp hl
    rcases (h.onward hl).unmet hj with hu | ⟨t, ht⟩
    · rw [hs] at hu
      cases hu
      exact ⟨_, rfl⟩
    · rw [hjournal] at ht
      rcases List.mem_append.1 ht with ht | ht
      · exact absurd ht (hn t)
      · exact absurd ht hh.silent

/-! ### Frames and the bytes of a stream -/

/-- The frame of a message in the encoding of the session. -/
def frame? (c : Client) (m : ClientMessage) : Except Failure (List UInt8) :=
  Frame.encode? .request c.encoding (c.encoding.print m.toValue)

/-- A frame that is let out is the frame of its message, and keeps to the limit. -/
theorem exists_frame (h : c.frameOf? m = .ok bytes) :
    ∃ f : Frame, bytes = f.toBytes ∧ f.Legal c.config.frameLimit ∧ c.frame? m = .ok f.toBytes := by
  unfold frameOf? at h
  unfold frame? Frame.encode?
  generalize c.encoding.print m.toValue = payload at h ⊢
  dsimp only at h
  cases hh : Header.ofPayload? .request c.encoding payload.length with
  | error e =>
    rw [hh] at h
    cases h
  | ok header =>
    rw [hh] at h
    dsimp only at h
    split at h
    · cases h
    next hl =>
      cases h
      refine ⟨⟨header, payload⟩, rfl, ⟨?_, ?_⟩, rfl⟩
      · rw [UInt32.lt_iff_toNat_lt] at hl
        exact UInt32.le_iff_toNat_le.2 (Nat.le_of_not_lt hl)
      · unfold Header.ofPayload? at hh
        split at hh
        next hs =>
          cases hh
          dsimp only
          rw [UInt32.toNat_ofNat']
          exact (Nat.mod_eq_of_lt hs).symm
        · cases hh

/-- The frames that are out, read as frames. -/
theorem exists_frames {sent : List (Nat × ClientMessage)} {frames : List (List UInt8)}
    (h : List.Forall₂ (fun p f => c.frameOf? p.2 = .ok f) sent frames) :
    ∃ fs : List Frame, frames = fs.map Frame.toBytes ∧
      (∀ f ∈ fs, f.Legal c.config.frameLimit) ∧
      List.Forall₂ (fun p f => c.frame? p.2 = .ok f.toBytes) sent fs := by
  induction h with
  | nil => exact ⟨[], rfl, nofun, .nil⟩
  | cons hf _ ih =>
    obtain ⟨f, rfl, hl, hm⟩ := exists_frame hf
    obtain ⟨fs, rfl, hls, hms⟩ := ih
    refine ⟨f :: fs, rfl, fun g hg => ?_, .cons hm hms⟩
    rcases List.mem_cons.1 hg with rfl | hg
    · exact hl
    · exact hls g hg

end Client

namespace Frame

/-- A proper part of a frame begins with no frame. -/
theorem Legal.ne_of_part {limit : UInt32} {f g : Frame} {part rest more : List UInt8}
    (hg : g.Legal limit) (hb : part ++ rest = g.toBytes) (hr : rest ≠ []) (hf : f.Legal limit) :
    part ≠ f.toBytes ++ more := by
  rintro rfl
  rw [List.append_assoc] at hb
  have hx := (hf.append_inj hg (hb.trans (List.append_nil _).symm)).2
  exact hr (List.append_eq_nil_iff.1 hx).2

theorem nil_ne_toBytes (f : Frame) (more : List UInt8) : [] ≠ f.toBytes ++ more := fun h => by
  have hl := congrArg List.length h
  rw [List.length_append, length_toBytes] at hl
  simp [Header.size] at hl
  omega

end Frame

namespace Client

variable {c : Client} {config : Config}

/-! ### What the peer has taken -/

/-- What the peer has taken: the request of the handshake, the frames of messages, and a proper part
of one more. The bytes can be cut into frames in no other way. The messages are those that their
calls had to send, in the order in which the calls set out to send, which is that in which they took
the write path.

A part that is there is that of the next message. Its call has the write path and still has the rest
to send, or nothing goes out any more. -/
structure Delivers (c : Client) (request : List UInt8) (sent : List (Nat × ClientMessage))
    (frames : List Frame) (part : List UInt8) : Prop where
  opening : c.opening = .ok request
  taken : c.peer.taken = request ++ (frames.flatMap Frame.toBytes ++ part)
  splits : Frame.Splits c.config.frameLimit (frames.flatMap Frame.toBytes ++ part) frames part
  spells : List.Forall₂ (fun p f => c.frame? p.2 = .ok f.toBytes) sent frames
  builds : ∀ p ∈ sendings c.journal, c.Builds p.1 p.2
  order : sent.Sublist (sendings c.journal)
  turns : (senders c.journal).Sublist c.write.takers
  next : part ≠ [] → ∃ n m rest, (sent ++ [(n, m)]).Sublist (sendings c.journal) ∧
    c.frame? m = .ok (part ++ rest) ∧ rest ≠ [] ∧
    (c.holds (.call n) = true ∧ (∃ s, c.stage n = .send s ∧ s.rest = rest) ∨ c.Cut)

/-- What the peer has taken tells the frames and the part. -/
theorem Delivers.unique {request request' part part' : List UInt8}
    {sent sent' : List (Nat × ClientMessage)} {frames frames' : List Frame}
    (h : c.Delivers request sent frames part) (h' : c.Delivers request' sent' frames' part') :
    frames = frames' ∧ part = part' := by
  cases h.opening.symm.trans h'.opening
  have hb := List.append_cancel_left (h.taken.symm.trans h'.taken)
  exact h.splits.unique (hb ▸ h'.splits)

/-- Whole frames, and a part of one more that is being sent or has been left half written. -/
theorem Possible.exists_delivers (h : Possible config c) {request part : List UInt8}
    {sent : List (Nat × ClientMessage)} {frames : List (List UInt8)}
    (ho : c.opening = .ok request) (ht : c.peer.taken = request ++ frames.flatten ++ part)
    (hf : List.Forall₂ (fun p f => c.frameOf? p.2 = .ok f) sent frames)
    (hs : sent.Sublist (sendings c.journal))
    (hp : part ≠ [] → ∃ n m rest, (sent ++ [(n, m)]).Sublist (sendings c.journal) ∧
      c.frameOf? m = .ok (part ++ rest) ∧ rest ≠ [] ∧
      (c.holds (.call n) = true ∧ (∃ s, c.stage n = .send s ∧ s.rest = rest) ∨ c.Cut)) :
    ∃ sent frames part, c.Delivers request sent frames part := by
  obtain ⟨fs, rfl, hl, hm⟩ := exists_frames hf
  refine ⟨sent, fs, part, ho, ?_, ⟨rfl, hl, fun f more hfl => ?_⟩, hm,
    fun p hx => h.inTurn.builds (mem_sendings.1 hx), hs, h.inTurn.order, fun hne => ?_⟩
  · rw [ht, List.append_assoc, List.flatMap_def]
  · by_cases hne : part = []
    · rw [hne]
      exact Frame.nil_ne_toBytes f more
    · obtain ⟨n, m, rest, -, hx, hr, -⟩ := hp hne
      obtain ⟨g, hb, hg, -⟩ := exists_frame hx
      exact hg.ne_of_part hb hr hfl
  · obtain ⟨n, m, rest, hsub, hx, hr, hw⟩ := hp hne
    obtain ⟨g, hb, -, hg⟩ := exists_frame hx
    exact ⟨n, m, rest, hsub, hb ▸ hg, hr, hw⟩

/-- **The integrity of the outgoing stream**, in every run. -/
theorem Possible.delivers (h : Possible config c) (hs : c.session ≠ none) :
    ∃ request sent frames part, c.Delivers request sent frames part := by
  obtain @⟨request, part, sent, frames, ho, ht, hf, hsub, hl⟩ := h.outgoing.stream hs
  refine ⟨request, ?_⟩
  cases hl with
  | clear hn hp => exact h.exists_delivers ho ht hf hsub fun hne => absurd hp hne
  | @broken n m rest hn hh hx hp hr hsub' =>
    exact h.exists_delivers ho ht hf hsub fun _ => ⟨n, m, rest, hsub', hx, hr, .inr (h.cut hh)⟩
  | @busy n m s hst hx hz hsub' =>
    by_cases hr : s.rest = []
    · -- The last byte is out, though the call has not been told so.
      rw [hr, List.append_nil] at hx
      have ht : c.peer.taken = request ++ (frames ++ [part]).flatten ++ [] := by
        rw [ht]
        simp
      exact h.exists_delivers ho ht (List.rel_append hf (.cons (a := (n, m)) hx .nil)) hsub'
        (absurd rfl)
    · exact h.exists_delivers ho ht hf hsub fun _ => ⟨n, m, s.rest, hsub', hx, hr,
        .inl ⟨(holds_iff _ _).2 (h.guarded.sender hst).1, s, hst, rfl⟩⟩

/-- A client that has been connected, and whose peer has taken five bytes of a ping that was given
up after that. -/
def severed : Client :=
  (initial .default).performAll
    [.start .connect, .feed [.chunk ([0, 1, 1] ++ List.replicate 16 7)],
      .change ⟨some (some 5), none, none, none, none⟩, .start (.operation .ping), .cancel 1,
      .start (.operation .ping)]

theorem delivers_severed : severed.session ≠ none ∧
    (∃ request sent frames part, severed.Delivers request sent frames part) ∧
    severed.write.half = .gone ∧ severed.peer.taken.length = 13 := by
  have hs : severed.session ≠ none := by
    have hx : severed.session.isSome = true := by decide +kernel
    intro hn
    rw [hn] at hx
    cases hx
  exact ⟨hs, (reachable_performAll _ _).possible.delivers hs, by decide +kernel, by decide +kernel⟩

end Client

end DocWire
