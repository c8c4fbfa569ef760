import DocWire.Proofs.Client.Sendings

/-! # What a move does to the outgoing stream

Few moves have to do with what the peer takes: the handshake, a call that sets out to send, adds to
its frame, or leaves the write path. All others leave the outgoing stream alone (`Rests`): the peer
takes nothing, nobody begins or ends to send, and the writing half of the stream stays where it is or
goes for good. -/

namespace DocWire

open DocWire.Correlator (Waiter)
open DocWire.Handshake (Exchange)

/-- Whether the writing half of the stream has left the write path for good. -/
def WriteHalf.IsPast (half : WriteHalf) : Prop := half = .leaving ∨ half = .gone

theorem WriteHalf.IsPast.ne {half : WriteHalf} (h : half.IsPast) :
    half ≠ .unused ∧ half ≠ .unsplit ∧ half ≠ .held := by
  rcases h with rfl | rfl <;> exact ⟨nofun, nofun, nofun⟩

/-- Leaving the write path keeps its half of the stream or drops it. -/
theorem WritePath.half_leave_cases (w : WritePath) :
    w.leave.half = w.half ∨ w.leave.half.IsPast := by
  rw [half_leave]
  split
  · exact .inr (.inr rfl)
  · exact .inl rfl

theorem WritePath.half_dropHalf_cases (w : WritePath) :
    w.dropHalf.half = w.half ∨ w.dropHalf.half.IsPast := by
  rw [half_dropHalf]
  split
  · exact .inr (.inr rfl)
  · exact .inl rfl

namespace Client

/-- A move leaves the stream alone. -/
structure Rests (c c' : Client) : Prop where
  taken : c'.peer.taken = c.peer.taken
  config : c'.config = c.config
  session : c'.session = c.session
  half : c'.write.half = c.write.half ∨ c'.write.half.IsPast
  sends : ∀ n s, c'.stage n = .send s ↔ c.stage n = .send s
  shakes : ∀ n e due, c'.stage n = .handshake e due → c.stage n = .handshake e due

/-- A call that was sending has left the write path. -/
structure Retires (c : Client) (n : Nat) (c' : Client) : Prop where
  taken : c'.peer.taken = c.peer.taken
  config : c'.config = c.config
  session : c'.session = c.session
  half : c'.write.half = c.write.leave.half
  calls : ∃ s : Stage, s.Remote ∧ c'.calls = (c.setStage n s).calls

/-- A move as the outgoing stream sees it. -/
inductive Affects (c : Client) : Client → Prop
  | rests {c' : Client} (hr : c.Rests c') : Affects c c'
  | connect {n due : Nat} {bytes : List UInt8} (hu : c.write.half = .unused)
      (hb : c.opening = .ok bytes) :
      Affects c (({ c with write := { c.write with half := .unsplit } }).setStage n
        (.handshake (.writing bytes) due))
  | shake {n due : Nat} {e e' : Exchange} {source : Stream.Source} {peer : Stream.Sink}
      (hs : c.stage n = .handshake e due)
      (hr : e.run c.source c.peer = (.stopped e', source, peer)) :
      Affects c (({ c with peer := peer }).setStage n (.handshake e' due))
  | establish {n due : Nat} {e : Exchange} {session : Handshake.Session} {source : Stream.Source}
      {peer : Stream.Sink} {r : Except Failure Outcome} (hs : c.stage n = .handshake e due)
      (hr : e.run c.source c.peer = (.done (.ok session), source, peer)) :
      Affects c ((({ c with peer := peer }).accept session).setStage n (.done r))
  | miss {n due : Nat} {e : Exchange} {r : Except Failure Outcome} (peer : Stream.Sink)
      (hs : c.stage n = .handshake e due) :
      Affects c (({ c with peer := peer }).dropStream.setStage n (.done r))
  | begin {n due : Nat} {m : ClientMessage} {waiter : Option Waiter} {c₁ : Client}
      {bytes : List UInt8} (he : c.Enters n m waiter c₁) (hf : c.frameOf? m = .ok bytes)
      (hw : c.write.half = .held) :
      Affects c (c₁.setStage n (.send ⟨bytes, bytes.length, waiter, due⟩))
  | write {n : Nat} {s : Sending} {out rest : List UInt8} (hs : c.stage n = .send s)
      (hb : out ++ rest = s.rest) :
      Affects c (({ c with peer := { c.peer with taken := c.peer.taken ++ out } }).sendRest n
        { s with rest := rest })
  | retire {n : Nat} {s : Sending} {c' : Client} (hs : c.stage n = .send s)
      (hr : c.Retires n c') : Affects c c'

variable {c c' c₁ d : Client} {n : Nat} {m : ClientMessage} {waiter : Option Waiter}

/-! ### Moves that leave the stream alone -/

theorem Rests.of_calls (ht : c'.peer.taken = c.peer.taken) (hf : c'.config = c.config)
    (hs : c'.session = c.session) (hh : c'.write.half = c.write.half ∨ c'.write.half.IsPast)
    (hc : c'.calls = c.calls) : c.Rests c' :=
  ⟨ht, hf, hs, hh, fun n s => by rw [stage_congr hc], fun n e due => by rw [stage_congr hc]; exact id⟩

theorem Rests.refl (c : Client) : c.Rests c := .of_calls rfl rfl rfl (.inl rfl) rfl

theorem Rests.trans (h : c.Rests d) (h' : d.Rests c') : c.Rests c' where
  taken := h'.taken.trans h.taken
  config := h'.config.trans h.config
  session := h'.session.trans h.session
  half := by
    rcases h'.half with hx | hx
    · rw [hx]; exact h.half
    · exact .inr hx
  sends n s := (h'.sends n s).trans (h.sends n s)
  shakes n e due hs := h.shakes n e due (h'.shakes n e due hs)

theorem Rests.setStage {s : Stage} (h : c.Rests d) (hn : ∀ s', c.stage n ≠ .send s')
    (hs : ∀ s', s ≠ .send s') (hk : ∀ e due, s ≠ .handshake e due) :
    c.Rests (d.setStage n s) where
  taken := h.taken
  config := h.config
  session := h.session
  half := h.half
  sends i s' := by
    rw [stage_setStage, ← h.sends i s']
    split
    next hi =>
      refine ⟨fun hx => absurd hx (hs s'), fun hx => ?_⟩
      rw [hi.1] at hx
      exact absurd ((h.sends n s').1 hx) (hn s')
    next => rfl
  shakes i e due hx := h.shakes i e due ((stage_setStage_cases hx).resolve_left fun hi =>
    hk e due hi.2.symm)

theorem peer_forgetAny (c : Client) (waiter : Option Waiter) :
    (c.forgetAny waiter).peer = c.peer ∧ (c.forgetAny waiter).config = c.config ∧
      (c.forgetAny waiter).session = c.session := by
  cases waiter <;> exact ⟨rfl, rfl, rfl⟩

theorem Rests.reject (h : c.Rests d) (id : String) : c.Rests (d.reject id) :=
  ⟨h.taken, h.config, h.session, h.half, h.sends, h.shakes⟩

theorem Rests.conclude (c : Client) (n : Nat) (w : Waiter) (r : Except Failure Reply)
    (hn : ∀ s', c.stage n ≠ .send s') : c.Rests (c.conclude n w r) := by
  have hf : c.Rests (c.forget w) := .of_calls rfl rfl rfl (.inl rfl) rfl
  cases r with
  | error e => exact hf.setStage hn nofun nofun
  | ok reply =>
    have ha : c.Rests ((c.forget w).record (.answered n reply)) :=
      .of_calls rfl rfl rfl (.inl rfl) rfl
    unfold Client.conclude
    dsimp only
    split
    · exact (ha.reject w.id).setStage hn nofun nofun
    · exact ha.setStage hn nofun nofun

theorem Rests.routed (c : Client) (f : Frame) : c.Rests (c.routed f) := by
  unfold Client.routed
  split
  · split <;> exact .of_calls rfl rfl rfl (.inl rfl) rfl
  · unfold dispatch
    split <;> exact .of_calls rfl rfl rfl (.inl rfl) rfl
  · exact .refl c

theorem Rests.of_core (h : c.core = c'.core) : c.Rests c' := by
  have ht := congrArg (fun d : Client => d.peer.taken) h
  have hf := congrArg Client.config h
  have hs := congrArg Client.session h
  exact .of_calls ht.symm hf.symm hs.symm (.inl (congrArg WritePath.half (write_eq h)).symm)
    (calls_eq h).symm

theorem Rests.route (c : Client) (f : Frame) : c.Rests (c.route f) := by
  have hr : c.Rests (c.record (.routed f)) := .of_calls rfl rfl rfl (.inl rfl) rfl
  exact (hr.trans (.routed _ f)).trans (.of_core (core_route c f).symm)

/-- What a failed sending leaves behind. -/
theorem Fails.facts {e : Failure} (hf : c.Fails n e d c') :
    c'.peer = d.peer ∧ c'.config = d.config ∧ c'.session = d.session ∧ c'.write = d.write ∧
      ∃ s : Stage, s.Remote ∧ c'.calls = (d.setStage n s).calls := by
  cases hf with
  | ends _ => exact ⟨rfl, rfl, rfl, rfl, .done _, trivial, rfl⟩
  | closes _ => exact ⟨rfl, rfl, rfl, rfl, .closeLock _, trivial, rfl⟩

theorem Enters.ne_send (he : c.Enters n m waiter c₁) (hg : Guarded c) (i : Nat) (s : Sending) :
    c.stage i ≠ .send s := by
  intro hi
  have hh : c.holds (.call n) = true := by cases he <;> assumption
  cases hg.eq_of_send hh hi
  rw [he.stage_eq_lock] at hi
  cases hi

/-- A call fails to send its frame, or the rest of it. -/
theorem Fails.affects {e : Failure} (hg : Guarded c) (hs : c.Sends n waiter c₁)
    (hf : c.Fails n e ((c₁.record (.unsent n e)).yield.forgetAny waiter) c') : c.Affects c' := by
  obtain ⟨hp, hc, hx, hw, s, hr, hd⟩ := hf.facts
  obtain ⟨hp', hc', hx'⟩ := peer_forgetAny (c₁.record (.unsent n e)).yield waiter
  have ht : c'.peer.taken = c₁.peer.taken := congrArg _ (hp.trans hp')
  have hcf : c'.config = c₁.config := hc.trans hc'
  have hsn : c'.session = c₁.session := hx.trans hx'
  have hwr : c'.write = c₁.write.leave := hw.trans (write_forgetAny _ _)
  have hcl : c'.calls = (c.setStage n s).calls := hd.trans (congrArg (List.modify · n _)
    ((calls_forgetAny (c₁.record (.unsent n e)).yield waiter).trans hs.calls_eq))
  cases hs with
  | later hs => exact .retire hs ⟨ht, hcf, hsn, congrArg _ hwr, s, hr, hcl⟩
  | @atOnce m _ _ he =>
    have hc₁ : c.Rests c₁ := by cases he <;> exact .of_calls rfl rfl rfl (.inl rfl) rfl
    have hl : c₁.Rests { c₁ with write := c₁.write.leave } :=
      .of_calls rfl rfl rfl (WritePath.half_leave_cases _) rfl
    refine .rests (((hc₁.trans hl).setStage (he.ne_send hg n) (s := s) ?_ ?_).trans
      (.of_calls ht hcf hsn (.inl (congrArg _ hwr)) (hcl.trans ?_)))
    · rintro s' rfl
      exact hr
    · rintro e due rfl
      exact hr
    · exact congrArg (List.modify · n _) he.calls_eq.symm

/-- **Every move is one of these.** -/
theorem Move.affects (hm : c.Move c') (hg : Guarded c) : c.Affects c' := by
  have away : ∀ {d : Client} {n : Nat} {s₀ s : Stage}, c.Rests d → c.stage n = s₀ →
      (∀ s', s₀ ≠ .send s') → s.Remote → c.Rests (d.setStage n s) := fun hr hs hn hs' =>
    hr.setStage (hs ▸ hn) (fun s' hx => by rw [hx] at hs'; exact hs')
      (fun e due hx => by rw [hx] at hs'; exact hs')
  have path : ∀ {w : WritePath}, w.half = c.write.half ∨ w.half.IsPast →
      c.Rests { c with write := w } := fun hw => .of_calls rfl rfl rfl hw rfl
  have stay := Rests.refl c
  cases hm with
  | quiet hq => exact .rests (.of_core hq)
  | tick millis => exact .rests (.of_calls rfl rfl rfl (.inl rfl) rfl)
  | connect hs hj hu hb => exact .connect hu hb
  | shake hs hr => exact .shake hs hr
  | establish hs hr => exact .establish hs hr
  | miss hs hr hp => exact .miss _ hs
  | abandon hs => exact .rests (away (.of_calls rfl rfl rfl (.inr (.inr rfl)) rfl) hs nofun trivial)
  | refuse hs hj hu hb =>
    exact .rests (away (.of_calls rfl rfl rfl (.inr (.inr rfl)) rfl) hs nofun trivial)
  | turnDown hs hj hf => exact .rests (away stay hs nofun trivial)
  | tooLate hs hj hl => exact .rests (away stay hs nofun trivial)
  | leaveItAt hs hj ho => exact .rests (away stay hs nofun trivial)
  | waitForReader hs hj hl => exact .rests (away stay hs nofun trivial)
  | joined hs hr => exact .rests (away stay hs nofun trivial)
  | unroute hs hj ha => exact .rests (.of_calls rfl rfl rfl (.inl rfl) rfl)
  | lineUp hs hl hj =>
    exact .rests ((path (.inl (WritePath.half_acquire _ _))).setStage (by rw [hs]; nofun) nofun nofun)
  | turnAway hs hh hj hr =>
    exact .rests (away (path (WritePath.half_leave_cases c.useId.write)) hs nofun trivial)
  | pass hs hh hj => exact .rests (away (path (WritePath.half_leave_cases _)) hs nofun trivial)
  | begin he hf hw => exact .begin he hf hw
  | write hs hb => exact .write hs hb
  | @sent n s hs hr =>
    have hr : (c.afterSent s.waiter).Remote := by cases s.waiter <;> trivial
    exact .retire hs ⟨rfl, rfl, rfl, rfl, _, hr, rfl⟩
  | fail hs he hf => exact hf.affects hg hs
  | conclude hs hr => exact .rests (.conclude c _ _ _ (by rw [hs]; nofun))
  | dropIdle hs => rcases hs with hs | hs <;> exact .rests (away stay hs nofun trivial)
  | @dropLine n hs =>
    have hw := path (.inl (WritePath.half_withdraw c.write (.call n)))
    rcases hs with hs | ⟨k, hs⟩ <;> exact .rests (away hw hs nofun trivial)
  | @dropSend n s hs =>
    obtain ⟨hp, hc, hx⟩ := peer_forgetAny c s.waiter
    have hw : (c.forgetAny s.waiter).yield.write = c.write.leave :=
      congrArg WritePath.leave (write_forgetAny c s.waiter)
    exact .retire hs ⟨congrArg _ hp, hc, hx, congrArg _ hw, .dropped, trivial,
      congrArg (List.modify · n _) (calls_forgetAny c s.waiter)⟩
  | dropWait hs => exact .rests (away (.of_calls rfl rfl rfl (.inl rfl) rfl) hs nofun trivial)
  | dropShutdown hs => exact .rests (away (path (.inr (.inr rfl))) hs nofun trivial)
  | @close t k hm hl =>
    cases t with
    | reader => exact .rests (.of_calls rfl rfl rfl (.inl rfl) rfl)
    | call n =>
      have hr := away (s := .closeLock k) stay hm.1 nofun trivial
      exact .rests (hr.trans (.of_calls rfl rfl rfl (.inl rfl) rfl))
  | lineUpToClose hs hl => exact .rests (path (.inl (WritePath.half_acquire _ _)))
  | @takeHalf t k hs hh hw =>
    have hr := path (w := ({ c.write with half := .leaving } : WritePath).release)
      (.inr (.inl (WritePath.half_release _)))
    cases t with
    | reader => exact .rests (hr.trans (.of_calls rfl rfl rfl (.inl rfl) rfl))
    | call n =>
      have hs : c.stage n = .closeLock k := hs
      exact .rests (hr.setStage (by rw [hs]; nofun) nofun nofun)
  | findGone hs hh hw => exact .rests (.of_calls rfl rfl rfl (.inl (WritePath.half_release _)) rfl)
  | shut hs => exact .rests (.of_calls rfl rfl rfl (.inr (.inr rfl)) rfl)
  | rest hs hl hk => rcases hs with hs | hs <;> exact .rests (away stay hs nofun (remote_endsIn hk))
  | endReader hl =>
    refine .rests (.of_calls rfl rfl rfl ?_ rfl)
    dsimp only
    split
    · exact .inl rfl
    · exact WritePath.half_dropHalf_cases _
  | keepReading hr => exact .rests (.of_calls rfl rfl rfl (.inl rfl) rfl)
  | route hr ha f => exact .rests (.route c f)
  | letGo hs hh =>
    refine .rests (.of_calls rfl rfl rfl ?_ rfl)
    dsimp only
    split
    · exact .inl rfl
    · exact WritePath.half_dropHalf_cases _

theorem Rests.addCall (c : Client) (job : Job) : c.Rests (c.addCall job) := by
  have hx : ∀ {i s}, s ≠ .fresh → (c.addCall job).stage i = s → c.stage i = s := fun hs hi =>
    (stage_addCall c job _).elim (fun h => h.symm.trans hi) fun h => absurd (hi.symm.trans h) hs
  refine ⟨rfl, rfl, rfl, .inl rfl, fun i s => ⟨hx nofun, fun hi => ?_⟩, fun i e due => hx nofun⟩
  rw [← hi]
  unfold stage Client.addCall
  rw [List.getElem?_append_left (lt_of_stage_ne_dropped (by simp [hi]))]

end Client

end DocWire
