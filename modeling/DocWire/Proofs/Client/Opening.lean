import DocWire.Proofs.Client.Sparing

/-! # How a connection begins

A connection comes into being when its handshake succeeds, in a turn of the call that connects, and
in no other way. It then has a reader that waits for its first turn with nothing in its buffer; nobody
has asked it to stop, and no frame has been routed (`Possible.opened`). Until then no frame is routed
at all, since only a reader that is reading does so (`Move.received_eq`). -/

namespace DocWire

open DocWire.Correlator (Waiter)

/-- The frame that an incident says has been routed. -/
def Incident.frame? : Incident → Option Frame
  | .routed f => some f
  | _ => none

namespace Client

variable {b c c' c₁ : Client} {n : Nat} {config : Config} {r : Except Failure Outcome}

/-- The frames that have been routed, in order. -/
def received (c : Client) : List Frame := c.journal.filterMap Incident.frame?

/-! ### Who routes frames -/

theorem received_congr (h : c'.journal = c.journal) : c'.received = c.received :=
  congrArg (List.filterMap Incident.frame?) h

theorem received_of_append {l : List Incident} (h : c'.journal = c.journal ++ l)
    (hl : ∀ i ∈ l, i.frame? = none) : c'.received = c.received := by
  unfold received
  rw [h, List.filterMap_append, List.filterMap_eq_nil_iff.2 hl, List.append_nil]

theorem received_forgetAny (c : Client) (waiter : Option Waiter) :
    (c.forgetAny waiter).received = c.received := by
  obtain ⟨l, hj, hl⟩ := journal_forgetAny c waiter
  refine received_of_append hj fun i hi => ?_
  obtain ⟨id, rfl⟩ := hl i hi
  rfl

theorem received_conclude (c : Client) (n : Nat) (w : Waiter) (r : Except Failure Reply) :
    (c.conclude n w r).received = c.received := by
  cases r with
  | error e => exact received_of_append (l := [.left w.id]) rfl (by simp [Incident.frame?])
  | ok reply =>
    unfold conclude
    dsimp only
    split
    · exact received_of_append (l := [.left w.id, .answered n reply, .rejected w.id])
        (by simp [reject]) (by simp [Incident.frame?])
    · exact received_of_append (l := [.left w.id, .answered n reply]) (by simp)
        (by simp [Incident.frame?])

theorem Enters.received_eq {m : ClientMessage} {waiter : Option Waiter}
    (he : c.Enters n m waiter c₁) : c₁.received = c.received := by
  cases he with
  | @request op w correlator hs hh hj hr =>
    exact received_of_append (l := [.registered n w.id, .sending n (op.message w.id)])
      (List.append_assoc _ _ _) (by simp [Incident.frame?])
  | farewell hs hh hj => exact received_of_append rfl (by simp [Incident.frame?])

theorem Sends.received_eq {waiter : Option Waiter} (hs : c.Sends n waiter c₁) :
    c₁.received = c.received := by
  cases hs with
  | atOnce he => exact he.received_eq
  | later hs => rfl

theorem received_route (c : Client) (f : Frame) : (c.route f).received = c.received ++ [f] := by
  have hr : ((c.record (.routed f)).routed f).received = (c.record (.routed f)).received := by
    unfold routed
    split
    · split <;> rfl
    next note _ _ =>
      unfold dispatch
      split
      next target _ =>
        exact received_of_append (l := [.notified target.call note.event]) rfl
          (by simp [Incident.frame?])
      · rfl
    · rfl
  rw [received_congr (journal_eq (core_route c f)), hr]
  unfold received
  rw [journal_record, List.filterMap_append]
  rfl

/-- **Only a reader that is reading routes frames.** -/
theorem Move.received_eq (hm : c.Move c') (hr : ∀ buffer, c.reader ≠ .reading buffer) :
    c'.received = c.received := by
  cases hm with
  | quiet hq => exact received_congr (journal_eq hq).symm
  | begin he hf hw => exact he.received_eq
  | sent hs hb => exact received_of_append rfl (by simp [Incident.frame?])
  | @fail c₁ _ n waiter e hs he hf =>
    have hu : (c₁.record (.unsent n e)).received = c₁.received :=
      received_of_append rfl (by simp [Incident.frame?])
    have hd : ((c₁.record (.unsent n e)).yield.forgetAny waiter).received = c.received :=
      (received_forgetAny _ _).trans (hu.trans hs.received_eq)
    cases hf with
    | ends _ => exact hd
    | closes _ => exact (received_of_append rfl (by simp [Incident.frame?])).trans hd
  | conclude hs ho => exact received_conclude _ _ _ _
  | dropSend hs => exact received_forgetAny _ _
  | dropWait hs => exact received_of_append rfl (by simp [Incident.frame?])
  | unroute hs hj ha => exact received_of_append rfl (by simp [Incident.frame?])
  | @close t k hk hl =>
    refine received_of_append (l := [.closing]) ?_ (by simp [Incident.frame?])
    cases t <;> rfl
  | @takeHalf t k hs hh hw => cases t <;> rfl
  | route hr' ha f => exact absurd hr' (hr _)
  | _ => rfl

/-! ### What does not touch the connection -/

/-- Nothing has been done to the connection, its reader included. -/
structure Undisturbed (b c : Client) : Prop where
  keel : c.keel = b.keel
  received : c.received = b.received
  ready : .reader ∈ b.ready → .reader ∈ c.ready

namespace Undisturbed

theorem refl (c : Client) : Undisturbed c c := ⟨rfl, rfl, id⟩

theorem of_ready (h : Undisturbed b c) (hq : ∃ l, c' = { c with ready := l })
    (hr : ∀ x ∈ c.ready, x ∈ c'.ready) : Undisturbed b c' := by
  obtain ⟨l, rfl⟩ := hq
  exact ⟨h.keel, h.received, fun hx => hr _ (h.ready hx)⟩

theorem wake (h : Undisturbed b c) (t : Task) : Undisturbed b (c.wake t) :=
  h.of_ready (exists_ready_wake c t) fun _ hx => (mem_wake c t).2 (.inl hx)

theorem wakeCalls (h : Undisturbed b c) (p : Stage → Bool) : Undisturbed b (c.wakeCalls p) :=
  h.of_ready (exists_ready_wakeCalls c p) ((Tends.refl .reader c).wakeCalls p).ready

theorem fireTimers (h : Undisturbed b c) : Undisturbed b c.fireTimers := by
  have hf : ∀ (l : List Timer) (d : Client), Undisturbed b d →
      Undisturbed b (l.foldl (fun d t => d.wake (.call t.call)) d) := by
    intro l
    induction l with
    | nil => exact fun d hd => hd
    | cons t l ih => exact fun d hd => ih _ (hd.wake _)
  exact hf _ _ ⟨h.keel, h.received, h.ready⟩

theorem wakeWriters (h : Undisturbed b c) : Undisturbed b c.wakeWriters := by
  unfold Client.wakeWriters
  dsimp only
  split
  · exact (h.wakeCalls _).wake _
  · exact h.wakeCalls _

theorem wakeReaders (h : Undisturbed b c) : Undisturbed b c.wakeReaders := by
  unfold Client.wakeReaders
  dsimp only
  split
  · exact (h.wakeCalls _).wake _
  · exact h.wakeCalls _

theorem of_spares (h : Spares n b c) (hr : .reader ∈ b.ready → .reader ∈ c.ready) :
    Undisturbed b c := by
  obtain ⟨l, hj, hl⟩ := h.journal
  refine ⟨h.keel, received_of_append hj fun i hi => ?_, hr⟩
  have hi := hl i hi
  cases i <;> first | rfl | exact absurd trivial hi

theorem start (c : Client) (job : Job) : Undisturbed c (c.act (.start job)) := by
  have hc : Undisturbed c { c with calls := c.calls ++ [Call.mk job .fresh] } := ⟨rfl, rfl, id⟩
  exact hc.wake _

theorem change (c : Client) (d : Stream.SinkChange) : Undisturbed c (c.act (.change d)) :=
  wakeWriters ⟨rfl, rfl, id⟩

theorem advance (c : Client) (millis : Nat) : Undisturbed c (c.act (.advance millis)) :=
  fireTimers ⟨rfl, rfl, id⟩

end Undisturbed

/-! ### Before there is a connection -/

/-- There is no connection: nobody holds one, and nobody reads. -/
structure Unmade (c : Client) : Prop where
  held : c.held = false
  session : c.session = none
  reader : ∀ buffer, c.reader ≠ .reading buffer
  received : c.received = []

/-- There is no connection, and the reader that there will be has not been asked to stop. -/
def Early (c : Client) : Prop := c.life = .unconnected ∧ c.stopAsked = false

theorem Early.congr (h : c.Early) (hk : c'.keel = c.keel) : c'.Early := by
  have ha := congrArg stopAsked hk
  exact ⟨(life_of_keel hk).trans h.1, ha.trans h.2⟩

/-- A connection that has just come into being. -/
structure Opened (c : Client) : Prop where
  life : c.life = .connected
  held : c.held = true
  reader : c.reader = .reading (Frame.Buffer.empty c.config.frameLimit)
  ready : .reader ∈ c.ready
  unasked : c.stopAsked = false
  received : c.received = []

/-- What there is of a connection, by who holds it and who reads. -/
def standing (c : Client) : Bool × Option Handshake.Session × ReaderStage :=
  (c.held, c.session, c.reader)

theorem standing_of_outline (h : c.outline = c'.outline) : c.standing = c'.standing := by
  have hs := congrArg standing h
  exact hs

/-- Nothing comes of a client without a connection, except by a handshake. -/
theorem Lawful.unmade_move (hl : Lawful c) (hm : c.Move c')
    (h : c.life = .unconnected → Unmade c) (hu : c'.life = .unconnected) : Unmade c' := by
  have hu' : c.life = .unconnected := by
    by_contra hx
    exact (hl.closes.ages hl.guarded hm).ne_unconnected hx hu
  obtain ⟨hh, hs, hr, hx⟩ := h hu'
  have hx' : c'.received = [] := (hm.received_eq hr).trans hx
  have same : c'.standing = c.standing → Unmade c' := fun hq => by
    obtain ⟨he, hs', hr'⟩ := Prod.mk.inj hq |>.imp_right Prod.mk.inj
    exact ⟨he.trans hh, hs'.trans hs, fun _ he => hr _ (hr'.symm.trans he), hx'⟩
  cases hm with
  | quiet hq => exact same (standing_of_outline (outline_core hq)).symm
  | establish hs hr => cases hu
  | miss | abandon | refuse | endReader => exact ⟨hh, hs, nofun, hx'⟩
  | begin he hf hw =>
    have hq := standing_of_outline he.outline
    exact same hq
  | @fail c₁ _ n waiter e hs he hf =>
    cases hf with
    | ends _ =>
      have hq := standing_of_outline (outline_forgetAny (c₁.record (.unsent n e)).yield waiter)
      have hq' := standing_of_outline hs.outline
      exact same (hq.trans hq')
    | closes _ => cases hu
  | @conclude n due w r hs ho =>
    obtain ⟨r', hq⟩ := outline_conclude c n w r
    have hq := standing_of_outline hq
    exact same hq
  | @dropSend n s hs =>
    have hq := standing_of_outline (outline_forgetAny c s.waiter)
    exact same hq
  | close hk hl => cases hu
  | @takeHalf t k => cases t <;> first | exact same rfl | exact ⟨hh, hs, nofun, hx'⟩
  | route hr' ha f => exact absurd hr' (hr _)
  | keepReading hr' => exact absurd hr' (hr _)
  | letGo hs' hh' => cases hh'.symm.trans hh
  | _ => exact same rfl

/-- **No frame is routed before there is a connection.** -/
theorem Possible.unmade (h : Possible config c) (hu : c.life = .unconnected) : Unmade c :=
  h.induct_lawful (P := fun c => c.life = .unconnected → Unmade c) Lawful.unmade_move
    (fun _ _ h hu => ⟨(h hu).held, (h hu).session, (h hu).reader, (h hu).received⟩)
    (.initial config) (fun _ => ⟨rfl, rfl, nofun, rfl⟩) hu

/-! ### The handshake -/

theorem opened_accept (hx : c.received = []) (ha : c.stopAsked = false)
    (session : Handshake.Session) (n : Nat) (r : Except Failure Outcome) :
    (((c.accept session).wake .reader).finish n r).Opened := by
  have hm := (mem_wake (c.accept session) .reader).2 (.inr (rfl : Task.reader = .reader))
  obtain ⟨l, hq⟩ := exists_ready_wake (c.accept session) .reader
  rw [hq] at hm ⊢
  exact ⟨rfl, rfl, rfl, hm, ha, hx⟩

/-- What a call that connects comes to. -/
theorem opens_runHandshake (hu : c.Early) (hx : c.received = []) (n : Nat) (e : Handshake.Exchange)
    (due : Nat) : (c.runHandshake n e due).Early ∨ (c.runHandshake n e due).Opened := by
  unfold runHandshake
  split
  next session source peer _ =>
    exact .inr (opened_accept (c := { c with source := source, peer := peer }) hx hu.2 _ _ _)
  · exact .inl hu
  next source peer _ =>
    dsimp only
    split
    · exact .inl hu
    · refine .inl ?_
      unfold setTimer
      split <;> exact hu

theorem opens_shakeHands (hu : c.Early) (hx : c.received = []) (n : Nat)
    (first : Except Failure (List UInt8)) :
    (c.shakeHands n first).Early ∨ (c.shakeHands n first).Opened := by
  cases first with
  | error e => exact .inl hu
  | ok bytes =>
    refine opens_runHandshake (c := ({ c with
      write := { c.write with half := .unsplit } }).setStage n _) ?_ hx n _ _
    exact hu

/-- Before there is a connection, no call is further than the handshake. -/
theorem Lawful.opens_runCall (hl : Lawful c) (hx : Unmade c) (hu : c.Early) (n : Nat) :
    (c.runCall n).Early ∨ (c.runCall n).Opened := by
  have hc : ¬ c.isConnected = true := fun hc => nomatch ((isConnected_iff c).1 hc).symm.trans hu.1
  have hn : c.life ≠ .connected := by rw [hu.1]; nofun
  have hfits := hl.closes.fits n
  unfold runCall
  split
  next hf =>
    split
    · split
      · exact opens_shakeHands hu hx.received n _
      · exact .inl hu
    · unfold startOperation
      rw [if_neg hc]
      split <;> exact .inl hu
    · unfold startUnsubscribe
      split
      · exact .inl (Eq.mpr (congrArg Early (if_neg hc)) hu)
      · exact .inl hu
    · exact .inl hu
    · unfold close
      rw [if_neg hn]
      change Early (joinReader _ n) ∨ _
      unfold joinReader
      refine .inl ?_
      split
      · dsimp only
        split <;> exact hu
      · exact hu
  next e due _ => exact opens_runHandshake hu hx.received n e due
  next hs =>
    rw [hs] at hfits
    exact absurd hu.1 hfits
  next s hs => exact absurd hx.session (hl.guarded.bound (hl.guarded.half_of_send hs))
  next w due hs =>
    have hw := (hl.correlated.waits (n := n) (w := w) (by rw [phase_of_stage hs nofun]; rfl)).1
    exact .inl (hu.congr ((Spares.refl n c).awaitReply hw due).keel)
  next k hs =>
    rw [hs] at hfits
    exact absurd hu.1 (Life.IsPast.ne_unconnected hfits)
  next k hs =>
    rw [hs] at hfits
    exact absurd hu.1 (Life.IsPast.ne_unconnected hfits)
  · split <;> exact .inl hu
  · exact .inl hu
  · exact .inl hu

/-- **A connection comes into being in the turn of a call that connects.** -/
theorem Lawful.opens_turn (hl : Lawful c) (hx : Unmade c) (hu : c.Early) (t : Task) :
    (c.turn t).Early ∨ (c.turn t).Opened := by
  have hq : c.Move { c with ready := c.ready.erase t } := .quiet rfl
  have hx' : Unmade { c with ready := c.ready.erase t } :=
    ⟨hx.held, hx.session, hx.reader, hx.received⟩
  have never : ¬ c.life.IsPast := fun hp => hp.ne_unconnected hu.1
  cases t with
  | reader =>
    change Early (runReader _) ∨ _
    unfold runReader
    split
    next hr => exact absurd hr (hx.reader _)
    next hr => exact absurd (hl.closes.reader (.inl hr)) never
    next hr => exact absurd (hl.closes.reader (.inr hr)) never
    · exact .inl hu
    · exact .inl hu
  | call n => exact (Lawful.move hq hl).opens_runCall hx' hu n

theorem Lawful.early_cancelCall (hl : Lawful c) (hx : Unmade c) (hu : c.Early) (n : Nat) :
    (c.cancelCall n).Early := by
  have hfits := hl.closes.fits n
  have hd : Early ((c.clearTimer n).setStage n .dropped) := hu
  unfold cancelCall
  dsimp only
  split
  · exact hd
  next hs =>
    rw [hs] at hfits
    exact absurd hu.1 hfits
  next k hs =>
    rw [hs] at hfits
    exact absurd hu.1 (Life.IsPast.ne_unconnected hfits)
  next s hs => exact absurd hx.session (hl.guarded.bound (hl.guarded.half_of_send hs))
  next w due hs =>
    have hw := (hl.correlated.waits (n := n) (w := w) (by rw [phase_of_stage hs nofun]; rfl)).1
    exact hu.congr ((Spares.refl n c).clearTimer.setStage .dropped |>.forget hw).wakeDecided.keel
  · exact hd
  · exact hd
  · exact hd
  · exact hu
  · exact hu

/-- **What happens from outside makes no connection.** -/
theorem Possible.early_act (h : Possible config c) (hu : c.Early) (a : Action) :
    (c.act a).Early := by
  cases a with
  | start job => exact hu.congr (Undisturbed.start c job).keel
  | cancel n => exact h.lawful.early_cancelCall (h.unmade hu.1) hu n
  | feed more =>
    have hf : Undisturbed { c with source := c.source.feed more } (c.act (.feed more)) :=
      (Undisturbed.refl _).wakeReaders
    have hu' : Early { c with source := c.source.feed more } := hu
    exact hu'.congr hf.keel
  | change d => exact hu.congr (Undisturbed.change c d).keel
  | advance millis => exact hu.congr (Undisturbed.advance c millis).keel
  | part =>
    change Early (takeLeave _)
    unfold takeLeave
    rw [if_neg (by simp [(h.unmade hu.1).held])]
    exact hu
  | drop =>
    have hf : ∀ (l : List Nat) (d : Client), Possible config d → d.Early →
        Possible config (l.foldl cancelCall d) ∧ (l.foldl cancelCall d).Early := by
      intro l
      induction l with
      | nil => exact fun d hd he => ⟨hd, he⟩
      | cons n l ih =>
        intro d hd he
        have hd' : Possible config (d.cancelCall n) := hd.onward ((Onward.refl d).act (.cancel n))
        exact ih _ hd' (hd.lawful.early_cancelCall (hd.unmade he.1) he n)
    obtain ⟨hd, he⟩ := hf (List.range c.calls.length) c h hu
    change Early (letGo _)
    unfold letGo
    rw [if_neg (by simp [(hd.unmade he.1).held])]
    exact he

theorem Possible.opens (h : Possible config c) (hu : c.Early) (hg : c.Goes c') :
    c'.Early ∨ c'.Opened := by
  cases hg with
  | follows hf =>
    cases hf with
    | act a => exact .inl (h.early_act hu a)
    | turn t => exact h.lawful.opens_turn (h.unmade hu.1) hu t
  | overlook count =>
    refine .inl ?_
    unfold overlook
    split
    next hr => exact absurd hr ((h.unmade hu.1).reader _)
    · exact hu

theorem Possible.early (h : Possible config c) (hu : c.life = .unconnected) : c.Early := by
  induction h with
  | refl => exact ⟨rfl, rfl⟩
  | @tail d c hd hg ih =>
    have hd : Possible config d := hd
    have hu' : d.life = .unconnected := by
      by_contra hx
      have hdc : d.Onward c := Relation.ReflTransGen.single hg
      exact hdc.ne_unconnected hd.lawful hx hu
    rcases hd.opens (ih hu') hg with he | ho
    · exact he
    · cases ho.life.symm.trans hu

/-- **A connection begins with nothing read.** -/
theorem Possible.opened (h : Possible config c) (hu : c.life = .unconnected) (hg : c.Goes c')
    (hl : c'.life = .connected) : c'.Opened := by
  rcases h.opens (h.early hu) hg with he | ho
  · cases he.1.symm.trans hl
  · exact ho

end Client

end DocWire
