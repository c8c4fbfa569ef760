import DocWire.Proofs.Client.Opening
import DocWire.Proofs.Client.Writing
import DocWire.Proofs.Handshake.Layout

/-! # Settings and the call that connects

A call that connects with settings that are accepted has an opening message to send, and whatever the
handshake comes to, it is no invalid argument (`Knock`). If the settings are not accepted, the call
ends with their fault in its first turn: there is never a handshake nor a session, and no turn of any
task writes or reads a byte (`Barren`). Settings turn down a credential exactly if the opening message
has no place for it, and that message says one thing only (`opening_sound`). -/

namespace DocWire

open DocWire.Correlator (Waiter)
open DocWire.Stream (Source Sink Sent)
open DocWire.Handshake (Exchange Request)

namespace Handshake

variable {s s' : Source} {w w' : Sink} {f : Failure}

theorem conclude_ne (got : List UInt8) (fault : ArgumentFault) :
    conclude got ≠ .error (.invalidArgument fault) := by
  unfold conclude
  split
  next answer _ =>
    unfold Answer.session
    split <;> nofun
  · nofun

theorem readAnswer_ne (got : List UInt8) (s : Source) (fault : ArgumentFault) :
    (readAnswer got s).1 ≠ .done (.error (.invalidArgument fault)) := by
  fun_induction readAnswer got s with
  | case1 got s hg bs s' hr ih => exact ih
  | case5 got s hg => exact fun h => conclude_ne got fault (Progress.done.inj h)
  | _ =>
    intro h
    cases h

/-- **A handshake never comes to an invalid argument.** -/
theorem Exchange.run_ne (e : Exchange) (s : Source) (w : Sink) (fault : ArgumentFault) :
    (e.run s w).1 ≠ .done (.error (.invalidArgument fault)) := by
  have hf : ∀ w, (flushRequest s w).1 ≠ .done (.error (.invalidArgument fault)) := by
    intro w
    unfold flushRequest
    split
    · exact readAnswer_ne [] s fault
    · nofun
    · nofun
  unfold run
  split
  · split
    · exact hf _
    · nofun
    · nofun
    · nofun
  · exact hf w
  next got => exact readAnswer_ne got s fault

end Handshake

namespace Client

variable {b c c' c₁ : Client} {n : Nat} {config : Config} {e : Failure}
  {first : Except Failure (List UInt8)}

/-! ### The call that connects -/

/-- Where a call can be that connects, by the opening message of its settings. -/
inductive Knock (first : Except Failure (List UInt8)) : Stage → Prop
  | fresh : Knock first .fresh
  | shaking {bytes : List UInt8} {x : Exchange} {due : Nat} (hb : first = .ok bytes) :
    Knock first (.handshake x due)
  | ended (o : Outcome) : Knock first (.done (.ok o))
  | failed {bytes : List UInt8} {f : Failure} (hb : first = .ok bytes)
    (hf : ∀ fault, f ≠ .invalidArgument fault) : Knock first (.done (.error f))
  | refused {f : Failure} (hb : first = .error f) : Knock first (.done (.error f))
  | dropped : Knock first .dropped

/-- **What a call that connects goes through.** -/
theorem Knock.move (hm : c.Move c') (hj : c.job n = .connect) (h : Knock c.opening (c.stage n)) :
    Knock c.opening (c'.stage n) := by
  have still : c'.stage n = c.stage n → Knock c.opening (c'.stage n) := fun he => he ▸ h
  have goes : ∀ {m s}, c'.calls = (c.setStage m s).calls →
      (m = n → Knock c.opening s) → Knock c.opening (c'.stage n) := by
    intro m s hc hx
    rw [stage_congr hc, stage_setStage]
    split
    next hi => exact hx hi.1.symm
    · exact h
  -- a call with another job, or at a stage at which no call can be that connects
  have alien : ∀ {m s}, c'.calls = (c.setStage m s).calls → c.job m ≠ .connect →
      Knock c.opening (c'.stage n) := fun hc hx => goes hc fun hi => absurd hj (hi ▸ hx)
  have never : ∀ {m s s₀}, c.stage m = s₀ → ¬ Knock c.opening s₀ →
      c'.calls = (c.setStage m s).calls → Knock c.opening (c'.stage n) := fun hs hx hc =>
    goes hc fun hi => absurd h (by rw [← hi, hs]; exact hx)
  have shaken : ∀ {m x due}, c.stage m = .handshake x due → m = n →
      ∃ bytes, c.opening = .ok bytes := by
    intro m x due hs hi
    rw [← hi, hs] at h
    cases h with
    | shaking hb => exact ⟨_, hb⟩
  cases hm with
  | quiet hq => exact still (stage_eq hq n).symm
  | tick | unroute | lineUpToClose | endReader | keepReading | letGo | findGone | shut =>
    exact still rfl
  | connect hs hj' hu hb => exact goes rfl fun _ => .shaking hb
  | refuse hs hj' hu hb => exact goes rfl fun _ => .refused hb
  | shake hs hr =>
    refine goes rfl fun hi => ?_
    obtain ⟨bytes, hb⟩ := shaken hs hi
    exact .shaking hb
  | establish hs hr => exact goes rfl fun _ => .ended _
  | @miss m due x p f source peer hs hr hp =>
    refine goes rfl fun hi => ?_
    obtain ⟨bytes, hb⟩ := shaken hs hi
    refine .failed hb fun fault hx => ?_
    rcases hp with rfl | ⟨-, -, rfl⟩
    · exact x.run_ne c.source c.peer fault (by rw [hr, hx])
    · cases hx
  | abandon hs => exact goes rfl fun _ => .dropped
  | turnDown hs hj' hf => exact alien rfl (by simp [hj'])
  | tooLate hs hj' hc => exact alien rfl (by simp [hj'])
  | leaveItAt hs hj' ho => exact goes rfl fun _ => .ended _
  | waitForReader hs hj' hc => exact alien rfl (by simp [hj'])
  | joined hs hr => exact never hs nofun rfl
  | lineUp hs hc hj' =>
    refine alien rfl ?_
    rcases hj' with ⟨op, hj'⟩ | ⟨id, hj'⟩ <;> simp [hj']
  | turnAway hs hh hj' hr => exact alien rfl (by simp [hj'])
  | pass hs hh hj' => exact never hs nofun rfl
  | begin he hf hw => exact never he.stage_eq_lock nofun (calls_setStage he.calls_eq _ _)
  | write hs hb => exact never hs nofun rfl
  | sent hs hr => exact never hs nofun rfl
  | @fail c₁ _ m waiter e hs he hf =>
    have hd : ((c₁.record (.unsent m e)).yield.forgetAny waiter).calls = c.calls :=
      (calls_forgetAny _ _).trans hs.calls_eq
    obtain ⟨s', hc⟩ : ∃ s', c'.calls = (c.setStage m s').calls := by
      cases hf with
      | ends _ => exact ⟨_, calls_setStage hd _ _⟩
      | closes _ => exact ⟨_, calls_setStage hd _ _⟩
    cases hs with
    | atOnce he => exact never he.stage_eq_lock nofun hc
    | later hs => exact never hs nofun hc
  | @conclude m due w r hs hr =>
    obtain ⟨r', hq⟩ := outline_conclude c m w r
    exact never hs nofun (calls_of_outline hq)
  | dropIdle hs => exact goes rfl fun _ => .dropped
  | dropLine hs => exact goes rfl fun _ => .dropped
  | dropSend hs => exact goes (calls_setStage (calls_forgetAny _ _) _ _) fun _ => .dropped
  | dropWait hs => exact goes rfl fun _ => .dropped
  | dropShutdown hs => exact goes rfl fun _ => .dropped
  | @close t k hm hc =>
    cases t with
    | reader => exact still rfl
    | call m => exact alien (m := m) rfl (by simp [hm.2.1])
  | @takeHalf t k hs hh hw =>
    cases t with
    | reader => exact still rfl
    | call m =>
      have hs : c.stage m = .closeLock k := hs
      exact never (m := m) hs nofun rfl
  | @rest m k s hs hc hk =>
    have hs : c.stage m = .closeLock k ∨ c.stage m = .closeShutdown k := hs
    rcases hs with hs | hs <;> exact never (m := m) hs nofun rfl
  | route hr ha f =>
    exact still (stage_congr ((Client.calls_eq (core_route c f)).trans
      (calls_of_outline (outline_routed _ f))) n)

theorem Lawful.config_move (hl : Lawful c) (hm : c.Move c') : c'.config = c.config := by
  cases hm.affects hl.guarded with
  | rests hr => exact hr.config
  | begin he hf hw => cases he <;> rfl
  | retire hs hr => exact hr.config
  | _ => rfl

theorem Possible.config_eq (h : Possible config c) : c.config = config :=
  h.induct_lawful (P := fun c => c.config = config)
    (fun hl hm hx => (hl.config_move hm).trans hx) (fun _ _ hx => hx) (.initial config) rfl

theorem Possible.opening_eq (h : Possible config c) : c.opening = config.opening := by
  unfold Client.opening
  rw [h.config_eq]

/-- **What a call that connects goes through, over a run.** -/
theorem Possible.knock (h : Possible config c) (hj : c.job n = .connect) :
    Knock config.opening (c.stage n) := by
  have hk : c.config = config ∧ (c.job n = .connect → Knock config.opening (c.stage n)) := by
    refine h.induct_lawful (P := fun c => c.config = config ∧
      (c.job n = .connect → Knock config.opening (c.stage n))) ?_ ?_ (.initial config) ⟨rfl, nofun⟩
    · rintro c c' hl hm ⟨hc, hx⟩
      refine ⟨(hl.config_move hm).trans hc, fun hj => ?_⟩
      rw [hm.job_eq] at hj
      have ho : c.opening = config.opening := congrArg Config.opening hc
      have hk := Knock.move hm hj (ho ▸ hx hj)
      exact ho ▸ hk
    · rintro c job - ⟨hc, hx⟩
      refine ⟨hc, fun hj => ?_⟩
      rcases Nat.lt_or_ge n c.calls.length with hn | hn
      · rw [stage_addCall_of_lt hn]
        exact hx (((Aside.addCall c job).job n (by simp [hn])).symm.trans hj)
      · rcases stage_addCall c job n with hs | hs
        · rw [hs, stage, List.getElem?_eq_none hn]
          exact .dropped
        · rw [hs]
          exact .fresh
  exact hk.2 hj

/-! ### Settings that are not accepted -/

/-- There is no session, nobody shakes hands, and nothing has been written. -/
structure Barren (c : Client) : Prop where
  session : c.session = none
  idle : ∀ n x due, c.stage n ≠ .handshake x due
  taken : c.peer.taken = []

theorem Barren.unconnected (h : Barren c) (hl : Lawful c) : c.life = .unconnected := by
  by_contra hu
  exact (hl.closes.begun hu).1 h.session

theorem Barren.not_send (h : Barren c) (hl : Lawful c) (n : Nat) (s : Sending) :
    c.stage n ≠ .send s := fun hs => hl.guarded.bound (hl.guarded.half_of_send hs) h.session

theorem Barren.move (hl : Lawful c) (hm : c.Move c') (ho : c.opening = .error e) (h : Barren c) :
    Barren c' := by
  cases hm.affects hl.guarded with
  | rests hr =>
    exact ⟨hr.session.trans h.session, fun n x due hs => h.idle n x due (hr.shakes n x due hs),
      hr.taken.trans h.taken⟩
  | connect hu hb => cases hb.symm.trans ho
  | shake hs => exact absurd hs (h.idle _ _ _)
  | establish hs => exact absurd hs (h.idle _ _ _)
  | miss _ hs => exact absurd hs (h.idle _ _ _)
  | begin he hf hw => exact absurd h.session (hl.guarded.bound hw)
  | write hs => exact absurd hs (h.not_send hl _ _)
  | retire hs => exact absurd hs (h.not_send hl _ _)

theorem Possible.barren (h : Possible config c) (ho : config.opening = .error e) : Barren c := by
  have hb : c.config = config ∧ Barren c := by
    refine h.induct_lawful (P := fun c => c.config = config ∧ Barren c) ?_ ?_ (.initial config)
      ⟨rfl, rfl, nofun, rfl⟩
    · rintro c c' hl hm ⟨hc, hx⟩
      exact ⟨(hl.config_move hm).trans hc, hx.move hl hm ((congrArg Config.opening hc).trans ho)⟩
    · rintro c job - ⟨hc, hx⟩
      refine ⟨hc, hx.session, fun n x due hs => ?_, hx.taken⟩
      rcases stage_addCall c job n with hs' | hs'
      · exact hx.idle n x due (hs'.symm.trans hs)
      · cases hs'.symm.trans hs
  exact hb.2

/-- Nothing has been read and nothing written. -/
structure Dry (b c : Client) : Prop where
  source : c.source = b.source
  peer : c.peer = b.peer

namespace Dry

theorem refl (c : Client) : Dry c c := ⟨rfl, rfl⟩

theorem trans (h : Dry b c) (h' : Dry c c') : Dry b c' :=
  ⟨h'.source.trans h.source, h'.peer.trans h.peer⟩

theorem of_eq (h : Dry b c) (hs : c'.source = c.source) (hp : c'.peer = c.peer) : Dry b c' :=
  h.trans ⟨hs, hp⟩

theorem of_ready (h : Dry b c) (hq : ∃ l, c' = { c with ready := l }) : Dry b c' := by
  obtain ⟨l, rfl⟩ := hq
  exact h.of_eq rfl rfl

theorem wake (h : Dry b c) (t : Task) : Dry b (c.wake t) := h.of_ready (exists_ready_wake c t)

theorem wakeCalls (h : Dry b c) (p : Stage → Bool) : Dry b (c.wakeCalls p) :=
  h.of_ready (exists_ready_wakeCalls c p)

theorem wakeDecided (h : Dry b c) : Dry b c.wakeDecided := h.wakeCalls c.isDecided

theorem wakeFirst (h : Dry b c) (l : List Task) : Dry b (c.wakeFirst l) :=
  h.of_ready (exists_ready_wakeFirst c l)

theorem setTimer (h : Dry b c) (n due : Nat) : Dry b (c.setTimer n due) := by
  unfold Client.setTimer
  split
  · exact h
  · exact h.of_eq rfl rfl

theorem conclude (h : Dry b c) (n : Nat) (w : Waiter) (r : Except Failure Reply) :
    Dry b (c.conclude n w r) := by
  cases r with
  | error e => exact h.of_eq rfl rfl
  | ok reply =>
    have ha : Dry b ((c.forget w).record (.answered n reply)) := h.of_eq rfl rfl
    unfold Client.conclude
    dsimp only
    split
    · have hr : Dry b (((c.forget w).record (.answered n reply)).reject w.id) := ha.of_eq rfl rfl
      exact hr.of_eq rfl rfl
    · exact ha.of_eq rfl rfl

theorem awaitReply (h : Dry b c) (n : Nat) (w : Waiter) (due : Nat) :
    Dry b (c.awaitReply n w due) := by
  unfold Client.awaitReply
  split
  next r _ =>
    have hc : Dry b (c.clearTimer n) := h.of_eq rfl rfl
    exact (hc.conclude n w r).wakeDecided
  · exact h.setTimer n due

theorem foldl {α : Type} {f : Client → α → Client} (hf : ∀ d a, Dry d (f d a)) (l : List α)
    (c : Client) : Dry c (l.foldl f c) := by
  induction l generalizing c with
  | nil => exact .refl c
  | cons a l ih => exact (hf c a).trans (ih (f c a))

theorem leaveWritePath (h : Dry b c) : Dry b c.leaveWritePath := by
  have hv : Dry b c.vacate := h.of_eq rfl rfl
  unfold Client.leaveWritePath
  split
  · exact (hv.wake _).wakeFirst _
  · exact hv.wakeFirst _

theorem withdraw (h : Dry b c) (t : Task) : Dry b (c.withdraw t) := by
  have hr : Dry b { c with write := c.write.release } := h.of_eq rfl rfl
  unfold Client.withdraw
  split
  · exact hr.wakeFirst _
  · exact h.of_eq rfl rfl

theorem leave (h : Dry b c) (w : Waiter) : Dry b (c.leave w) := by
  have hf : Dry b (c.forget w) := h.of_eq rfl rfl
  exact hf.wakeDecided

theorem leaveIfAny (h : Dry b c) (waiter : Option Waiter) : Dry b (c.leaveIfAny waiter) := by
  cases waiter with
  | none => exact h
  | some w => exact h.leave w

theorem cancelCall (c : Client) (n : Nat) : Dry c (c.cancelCall n) := by
  have hd : Dry c ((c.clearTimer n).setStage n .dropped) := ⟨rfl, rfl⟩
  unfold Client.cancelCall
  dsimp only
  split
  · exact hd.of_eq rfl rfl
  · exact hd.withdraw _
  · exact hd.withdraw _
  · exact (hd.leaveIfAny _).leaveWritePath
  · exact hd.leave _
  · exact hd.of_eq rfl rfl
  · exact hd
  · exact hd
  · exact .refl c
  · exact .refl c

theorem askStop (h : Dry b c) : Dry b c.askStop := by
  have hx : Dry b { c with stopAsked := true } := h.of_eq rfl rfl
  exact hx.wake _

theorem takeLeave (h : Dry b c) : Dry b c.takeLeave := by
  unfold Client.takeLeave
  split
  · exact h.askStop
  · exact h

theorem letGo (h : Dry b c) : Dry b c.letGo := by
  unfold Client.letGo
  split
  · have hx : Dry b { c with held := false } := h.of_eq rfl rfl
    have hs := hx.askStop
    dsimp only
    split
    · exact hs
    · exact hs.of_eq rfl rfl
  · exact h

end Dry

/-- What the peer sends in an action. -/
def Action.fed : Action → List Sent
  | .feed more => more
  | _ => []

/-- **Nothing that happens from outside reads or writes a byte.** -/
theorem source_act (c : Client) (a : Action) :
    (c.act a).source = c.source.feed a.fed ∧ (c.act a).peer.taken = c.peer.taken := by
  have stay : ∀ {d : Client}, Dry c d → d.source = c.source.feed [] ∧
      d.peer.taken = c.peer.taken := by
    intro d hd
    refine ⟨hd.source.trans ?_, congrArg Sink.taken hd.peer⟩
    simp [Source.feed]
  cases a with
  | start job =>
    refine stay (Dry.wake ?_ _)
    exact ⟨rfl, rfl⟩
  | cancel n => exact stay (.cancelCall c n)
  | feed more =>
    have hd : Dry { c with source := c.source.feed more } (c.act (.feed more)) := by
      change Dry _ (wakeReaders _)
      unfold wakeReaders
      dsimp only
      split
      · exact ((Dry.refl _).wakeCalls _).wake _
      · exact (Dry.refl _).wakeCalls _
    exact ⟨hd.source, congrArg Sink.taken hd.peer⟩
  | change d =>
    have hd : Dry { c with peer := c.peer.change d } (c.act (.change d)) := by
      change Dry _ (wakeWriters _)
      unfold wakeWriters
      dsimp only
      split
      · exact ((Dry.refl _).wakeCalls _).wake _
      · exact (Dry.refl _).wakeCalls _
    obtain ⟨hs, -⟩ := stay (.refl c)
    exact ⟨hd.source.trans hs, (congrArg Sink.taken hd.peer).trans rfl⟩
  | advance millis =>
    refine stay (Dry.trans ?_ (.foldl (fun d t => (Dry.refl d).wake _) _ _))
    exact ⟨rfl, rfl⟩
  | part => exact stay (Dry.refl c).takeLeave
  | drop => exact stay (Dry.foldl Dry.cancelCall _ _).letGo

/-- **Without an opening message no call reads or writes.** -/
theorem Barren.runCall (h : Barren c) (hl : Lawful c) (ho : c.opening = .error e) (n : Nat) :
    Dry c (c.runCall n) := by
  have hu := h.unconnected hl
  have hc : ¬ c.isConnected = true := fun hc => nomatch ((isConnected_iff c).1 hc).symm.trans hu
  have hn : c.life ≠ .connected := by rw [hu]; nofun
  have hfits := hl.closes.fits n
  unfold Client.runCall
  split
  next hf =>
    split
    · split
      · unfold startConnect
        rw [ho]
        exact ⟨rfl, rfl⟩
      · exact ⟨rfl, rfl⟩
    · unfold startOperation
      rw [if_neg hc]
      split <;> exact ⟨rfl, rfl⟩
    · unfold startUnsubscribe
      split
      · exact Eq.mpr (congrArg (Dry c) (if_neg hc)) ⟨rfl, rfl⟩
      · exact ⟨rfl, rfl⟩
    · exact ⟨rfl, rfl⟩
    · unfold close
      rw [if_neg hn]
      unfold afterClose joinReader
      dsimp only
      split
      · split <;> exact ⟨rfl, rfl⟩
      · exact ⟨rfl, rfl⟩
  next hs => exact absurd hs (h.idle n _ _)
  next hs =>
    rw [hs] at hfits
    exact absurd hu hfits
  next s hs => exact absurd hs (h.not_send hl n s)
  · exact (Dry.refl c).awaitReply n _ _
  next hs =>
    rw [hs] at hfits
    exact absurd hu (Life.IsPast.ne_unconnected hfits)
  next hs =>
    rw [hs] at hfits
    exact absurd hu (Life.IsPast.ne_unconnected hfits)
  · split <;> exact ⟨rfl, rfl⟩
  · exact .refl c
  · exact .refl c

theorem Possible.dry_turn (h : Possible config c) (ho : config.opening = .error e) (t : Task) :
    Dry c (c.turn t) := by
  have hq : c.Move { c with ready := c.ready.erase t } := .quiet rfl
  have hb := h.barren ho
  have hl := h.lawful
  have hr := (h.unmade (hb.unconnected hl)).reader
  have never : ¬ c.life.IsPast := fun hp => hp.ne_unconnected (hb.unconnected hl)
  cases t with
  | reader =>
    change Dry c (runReader _)
    unfold runReader
    split
    next hx => exact absurd hx (hr _)
    next hx => exact absurd (hl.closes.reader (.inl hx)) never
    next hx => exact absurd (hl.closes.reader (.inr hx)) never
    · exact ⟨rfl, rfl⟩
    · exact ⟨rfl, rfl⟩
  | call n =>
    have ho' : c.opening = .error e := h.opening_eq.trans ho
    have hx : Dry c { c with ready := c.ready.erase (.call n) } := ⟨rfl, rfl⟩
    have hb' : Barren { c with ready := c.ready.erase (.call n) } := ⟨hb.session, hb.idle, hb.taken⟩
    exact hx.trans (hb'.runCall (.move hq hl) ho' n)

theorem Possible.dry_overlook (h : Possible config c) (ho : config.opening = .error e)
    (count : Nat) : Dry c (c.overlook count) := by
  have hr := (h.unmade ((h.barren ho).unconnected h.lawful)).reader
  unfold overlook
  split
  next hx => exact absurd hx (hr _)
  · exact .refl c

/-- **Without an opening message the call that connects ends in its first turn.** -/
theorem Possible.turn_connect (h : Possible config c) (ho : config.opening = .error e)
    (hj : c.job n = .connect) (hs : c.stage n = .fresh) (hu : c.write.half = .unused) :
    (c.turn (.call n)).stage n = .done (.error e) := by
  have hn : n < c.calls.length := lt_of_stage_ne_dropped (by simp [hs])
  have hr : c.turn (.call n) =
      ({ c with ready := c.ready.erase (.call n) } : Client).dropStream.finish n (.error e) := by
    change runCall { c with ready := c.ready.erase (.call n) } n = _
    have hs' : ({ c with ready := c.ready.erase (.call n) } : Client).stage n = .fresh := hs
    have hj' : ({ c with ready := c.ready.erase (.call n) } : Client).job n = .connect := hj
    have ho' : ({ c with ready := c.ready.erase (.call n) } : Client).opening = .error e :=
      h.opening_eq.trans ho
    unfold runCall
    rw [hs', hj']
    dsimp only
    rw [if_pos hu, startConnect, ho']
    rfl
  rw [hr]
  exact stage_setStage_self hn _

/-! ### The whole contract -/

/-- What becomes of the calls that connect with some settings, in a state that a client can come to.
Settings that are accepted are no reason to fail. With others no task reads or writes, and the call
ends in its first turn with what is wrong with them. What happens from outside (`act`) reads and
writes nothing, whatever the settings are. -/
structure Admits (config : Config) (c : Client) : Prop where
  valid : config.validate = .ok () → ∀ n, c.job n = .connect →
    ∀ fault, c.stage n ≠ .done (.error (.invalidArgument fault))
  barren : ∀ e, config.validate = .error e → Barren c ∧ (∀ t, Dry c (c.turn t)) ∧
    ∀ count, Dry c (c.overlook count)
  refused : ∀ e, config.validate = .error e → ∀ n, c.job n = .connect →
    (∀ f, c.stage n = .done (.error f) → f = e) ∧
      (c.stage n = .fresh → c.write.half = .unused →
        (c.turn (.call n)).stage n = .done (.error e))
  act : ∀ a, (c.act a).source = c.source.feed a.fed ∧ (c.act a).peer.taken = c.peer.taken

theorem Possible.admits (h : Possible config c) : Admits config c where
  valid hv n hj fault hs := by
    obtain ⟨bytes, hb⟩ := Config.exists_opening hv
    have hk := h.knock hj
    rw [hs, hb] at hk
    cases hk with
    | failed _ hf => exact hf fault rfl
    | refused hx => cases hx
  barren e hv := ⟨h.barren (Config.opening_eq_error hv), h.dry_turn (Config.opening_eq_error hv),
    h.dry_overlook (Config.opening_eq_error hv)⟩
  refused e hv n hj := by
    have ho := Config.opening_eq_error hv
    refine ⟨fun f hs => ?_, fun hs hu => h.turn_connect ho hj hs hu⟩
    have hk := h.knock hj
    rw [hs, ho] at hk
    cases hk with
    | failed hb => cases hb
    | refused hb =>
      cases hb
      rfl
  act := source_act c

end Client

/-- What holds of a request and of the settings of a client. All that is encoded is read back,
whatever comes behind it; and settings are accepted exactly if they are without their credential,
and their request is encoded. -/
structure Openings (r : Request) (config : Config) : Prop where
  encodes : (∃ bytes, r.encode? = .ok bytes) ↔ r.secret.length ≤ 65535
  parses : ∀ bytes, r.encode? = .ok bytes → ∀ rest, Request.parse? (bytes ++ rest) =
    some ⟨r.version, r.preferred == .messagePack, true, r.secret, rest⟩
  accepts : config.validate = .ok () ↔
    config.anonymous.validate = .ok () ∧ ∃ bytes, (Request.ofConfig config).encode? = .ok bytes
  rejects : config.validate = .error (.invalidArgument .credentialSettingTooLong) ↔
    config.anonymous.validate = .ok () ∧ ∃ e, (Request.ofConfig config).encode? = .error e
  connects : ∀ c, Client.Possible config c → Client.Admits config c

/-- **The opening message says one thing only, and the settings of a client agree with it.** -/
theorem opening_sound (r : Request) (config : Config) : Openings r config where
  encodes := Request.encode?_eq_ok_iff
  parses _ h rest := Request.parse?_encode? h rest
  accepts := Config.validate_eq_ok_iff
  rejects := Config.validate_eq_credential_iff
  connects _ h := h.admits

end DocWire
