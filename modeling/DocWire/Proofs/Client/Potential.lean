import DocWire.Proofs.Client.Frames
import DocWire.Proofs.Client.Turns
import DocWire.Proofs.Correlator.Operations

/-! # Moves come to an end

No move takes a client farther from its end (`Move.potential_le`), and a move that brings a call or
the reader to another stage takes it nearer: a call that registers a request has had to get in line
for the write path before, and the handshake, which brings the reader about, weighs more than the
reader. -/

namespace DocWire.Client

open DocWire.Correlator (Waiter Slot)

variable {c c' c₁ d : Client} {n : Nat} {t : Task} {k : AfterClose} {s s' : Stage}

theorem potential_eq (h : c.core = c'.core) : c.potential = c'.potential := by
  have hp := congrArg potential h
  exact hp

theorem load_modify (calls : List Call) (hn : n < calls.length) (s' : Stage) :
    load (calls.modify n fun call => { call with stage := s' }) + (calls[n].stage).rank =
      load calls + s'.rank := by
  induction calls generalizing n with
  | nil => simp at hn
  | cons call calls ih =>
    cases n with
    | zero =>
      simp only [List.modify_zero_cons, List.getElem_cons_zero, load]
      omega
    | succ n =>
      have hs := ih (n := n) (by simpa using hn)
      simp only [List.modify_succ_cons, List.getElem_cons_succ, load]
      omega

theorem potential_setStage (hs : c.stage n = s) (hd : s ≠ .dropped) (hc : d.calls = c.calls)
    (s' : Stage) :
    (d.setStage n s').potential + s.rank + c.reader.rank + c.correlator.size =
      c.potential + s'.rank + d.reader.rank + d.correlator.size := by
  have hn : n < d.calls.length := hc ▸ lt_of_stage_ne_dropped (hs ▸ hd)
  have hr : (d.calls[n].stage).rank = s.rank := by
    rw [← hs, ← stage_congr hc]
    unfold stage
    rw [List.getElem?_eq_getElem hn]
    rfl
  have hm := load_modify d.calls hn s'
  have hl : load d.calls = load c.calls := by rw [hc]
  unfold potential setStage
  dsimp only
  omega

/-- A call comes nearer to its end, and the reader and the registry make up for no more of it. -/
theorem potential_setStage_lt (hs : c.stage n = s) (hd : s ≠ .dropped) (hc : d.calls = c.calls)
    (hr : s'.rank + d.reader.rank + d.correlator.size <
      s.rank + c.reader.rank + c.correlator.size) :
    (d.setStage n s').potential < c.potential := by
  have hp := potential_setStage hs hd hc s'
  omega

theorem potential_stage_lt (hs : c.stage n = s) (hd : s ≠ .dropped) (hc : d.calls = c.calls)
    (hr : d.reader = c.reader) (hk : d.correlator = c.correlator) (hl : s'.rank < s.rank) :
    (d.setStage n s').potential < c.potential := by
  refine potential_setStage_lt hs hd hc ?_
  rw [hr, hk]
  omega

theorem potential_dropStream_lt (hs : c.stage n = s) (hd : s ≠ .dropped) (hc : d.calls = c.calls)
    (hk : d.correlator = c.correlator) (hl : s'.rank < s.rank) :
    (d.dropStream.setStage n s').potential < c.potential := by
  refine potential_setStage_lt (d := d.dropStream) hs hd hc ?_
  have hx : d.dropStream.correlator = c.correlator := hk
  have hr : d.dropStream.reader.rank = 0 := rfl
  rw [hx, hr]
  omega

/-! ### The registry -/

theorem size_register {id : String} {sub : Option Target} {w : Waiter}
    {correlator : Correlator Target} (h : c.correlator.register id sub = .ok (w, correlator)) :
    correlator.size = c.correlator.size + 1 := by
  obtain ⟨-, -, -, rfl⟩ := Correlator.register_ok h
  simp [Correlator.size]

theorem size_remove_le {κ : Type} (r : Correlator κ) (id : String) : (r.remove id).size ≤ r.size := by
  unfold Correlator.size Correlator.remove Entries.without
  exact List.length_filter_le _ _

theorem size_remove_lt {κ : Type} {r : Correlator κ} {id : String} {slot : Slot κ}
    (h : r.slots.lookup id = some slot) : (r.remove id).size < r.size := by
  unfold Correlator.size Correlator.remove Entries.without
  refine List.length_filter_lt_length_iff_exists.2 ⟨(id, slot), Entries.mem_of_lookup h, ?_⟩
  simp

theorem size_leave_le {κ : Type} (r : Correlator κ) (w : Waiter) : (r.leave w).size ≤ r.size := by
  refine Nat.le_trans ?_ (size_remove_le r w.id)
  unfold Correlator.leave Correlator.take Correlator.size
  split
  next slot r' h =>
    obtain ⟨-, rfl⟩ := Prod.mk.inj h
    exact Nat.le_of_eq (congrArg List.length (Correlator.slots_dropSlot _ _))
  next r' h =>
    obtain ⟨-, rfl⟩ := Prod.mk.inj h
    exact Nat.le_refl _

theorem size_forgetAny_le (c : Client) (waiter : Option Waiter) :
    (c.forgetAny waiter).correlator.size ≤ c.correlator.size := by
  cases waiter with
  | none => exact Nat.le_refl _
  | some w => exact size_leave_le _ _

theorem reader_forgetAny (c : Client) (waiter : Option Waiter) :
    (c.forgetAny waiter).reader = c.reader := by
  cases waiter <;> rfl

/-! ### Moves -/

theorem Enters.size_le {m : ClientMessage} {waiter : Option Waiter}
    (h : c.Enters n m waiter c₁) : c₁.correlator.size ≤ c.correlator.size + 1 := by
  cases h with
  | request hs hh hj hr => exact Nat.le_of_eq (size_register hr)
  | farewell hs hh hj => exact Nat.le_succ _

theorem Enters.reader_eq {m : ClientMessage} {waiter : Option Waiter}
    (h : c.Enters n m waiter c₁) : c₁.reader = c.reader := by
  cases h <;> rfl

theorem potential_begin {m : ClientMessage} {waiter : Option Waiter} {s : Sending}
    (he : c.Enters n m waiter c₁) : (c₁.setStage n (.send s)).potential < c.potential := by
  refine potential_setStage_lt he.stage_eq_lock nofun he.calls_eq ?_
  have hl := he.size_le
  rw [he.reader_eq]
  simp only [Stage.rank]
  omega

theorem potential_unsent {waiter : Option Waiter} {e : Failure} (hs : c.Sends n waiter c₁)
    {s : Stage} (ha : s.rank ≤ 4) :
    (((c₁.record (.unsent n e)).yield.forgetAny waiter).setStage n s).potential < c.potential := by
  have hc : ((c₁.record (.unsent n e)).yield.forgetAny waiter).calls = c.calls :=
    (calls_forgetAny _ _).trans hs.calls_eq
  have hz := size_forgetAny_le (c₁.record (.unsent n e)).yield waiter
  have hr := reader_forgetAny (c₁.record (.unsent n e)).yield waiter
  cases hs with
  | atOnce he =>
    refine potential_setStage_lt he.stage_eq_lock nofun hc ?_
    have hl := he.size_le
    have hr' : (c₁.record (.unsent n e)).yield.reader = c.reader := he.reader_eq
    have hz' : (c₁.record (.unsent n e)).yield.correlator.size = c₁.correlator.size := rfl
    have hk : Stage.lock.rank = 12 := rfl
    rw [hr, hr', hk]
    omega
  | @later s hs =>
    refine potential_setStage_lt hs nofun hc ?_
    have hr' : (c.record (.unsent n e)).yield.reader = c.reader := rfl
    have hz' : (c.record (.unsent n e)).yield.correlator.size = c.correlator.size := rfl
    have hk : (Stage.send s).rank = 8 := rfl
    rw [hr, hr', hk]
    omega

theorem potential_sent {s : Sending} (hs : c.stage n = .send s) :
    ((c.record (.sent n c.now)).yield.setStage n (c.afterSent s.waiter)).potential <
      c.potential := by
  refine potential_setStage_lt hs nofun rfl ?_
  have hr : (c.afterSent s.waiter).rank ≤ 6 := by
    cases s.waiter with
    | none => exact Nat.zero_le _
    | some w => exact Nat.le_refl _
  have hd : (c.record (.sent n c.now)).yield.reader = c.reader ∧
    (c.record (.sent n c.now)).yield.correlator = c.correlator := ⟨rfl, rfl⟩
  have hk : (Stage.send s).rank = 8 := rfl
  rw [hd.1, hd.2, hk]
  omega

theorem potential_conclude {w : Waiter} {due : Nat} {r : Except Failure Reply}
    (hs : c.stage n = .await w due) : (c.conclude n w r).potential < c.potential := by
  have hz := size_leave_le c.correlator w
  have hx : ∀ {d : Client} {r'}, d.calls = c.calls → d.reader = c.reader →
      d.correlator = c.correlator.leave w →
      (d.setStage n (.done r')).potential < c.potential := by
    intro d r' hc hr hk
    refine potential_setStage_lt hs nofun hc ?_
    rw [hr, hk]
    simp only [Stage.rank]
    omega
  cases r with
  | error e => exact hx rfl rfl rfl
  | ok reply =>
    unfold conclude
    dsimp only
    have hf : ∀ d : Client, (d.reject w.id).calls = d.calls ∧ (d.reject w.id).reader = d.reader ∧
        (d.reject w.id).correlator = d.correlator := fun d => ⟨rfl, rfl, rfl⟩
    obtain ⟨hc, hr, hk⟩ := hf ((c.forget w).record (.answered n reply))
    split
    · exact hx hc hr hk
    · exact hx rfl rfl rfl

theorem potential_breakOff (c : Client) : c.breakOff.potential ≤ c.potential := by
  have hz : c.breakOff.correlator.size = 0 := by
    unfold Correlator.size
    exact congrArg List.length (Correlator.slots_failAll c.correlator)
  have hs : load c.breakOff.calls = load c.calls := rfl
  have hr : c.breakOff.reader = c.reader := rfl
  unfold potential
  rw [hz, hs, hr]
  omega

/-- A failed sending takes a call nearer to its end, also if the call begins to close. -/
theorem potential_fails {waiter : Option Waiter} {e : Failure} (hs : c.Sends n waiter c₁)
    (hf : c.Fails n e ((c₁.record (.unsent n e)).yield.forgetAny waiter) c') :
    c'.potential < c.potential := by
  cases hf with
  | ends _ => exact potential_unsent hs (by simp [Stage.rank])
  | closes _ =>
    exact Nat.lt_of_le_of_lt (potential_breakOff _) (potential_unsent hs (by simp [Stage.rank]))

theorem potential_handOver (c : Client) (id : String) (isError : Bool) (reply : Reply)
    (slot : Slot Target) : (c.handOver id isError reply slot).potential = c.potential := by
  have hz : (c.handOver id isError reply slot).correlator.size = c.correlator.size :=
    congrArg List.length (Correlator.slots_fulfill c.correlator slot reply)
  unfold potential
  rw [hz]
  rfl

theorem potential_resolve_lt {id : String} {isError : Bool} {reply : Reply} {slot : Slot Target}
    (h : c.correlator.slots.lookup id = some slot) :
    (c.resolve id isError reply).potential < c.potential := by
  have hp : (c.resolve id isError reply).potential =
      ({ c with correlator := c.correlator.remove id } : Client).potential := by
    rw [potential_eq (core_resolve c id isError reply), h]
    exact (potential_eq rfl).trans (potential_handOver _ _ _ _ _)
  have hz := size_remove_lt h
  rw [hp]
  unfold potential
  dsimp only
  omega

/-! ### All moves -/

/-- Who goes for the write path to shut it down gets nearer to its end by any stage behind. -/
theorem potential_toShutdown_lt (hs : c.InCloseLock k t) (hc : d.calls = c.calls)
    (hr : d.reader = c.reader) (hk : d.correlator = c.correlator) :
    (d.toShutdown k t).potential < c.potential := by
  cases t with
  | reader =>
    have hs : c.reader = .closeLock := hs
    have hp : (d.toShutdown k .reader).potential =
      load c.calls + 3 + c.correlator.size := by rw [← hc, ← hk]; rfl
    have hp' : c.potential = load c.calls + 4 + c.correlator.size := by
      unfold potential; rw [hs]; rfl
    omega
  | call n => exact potential_stage_lt (s := .closeLock k) hs nofun hc hr hk (by simp [Stage.rank])

theorem potential_toCloseLock_lt (hm : c.MayClose k t) :
    (c.toCloseLock k t).potential < c.potential := by
  cases t with
  | reader =>
    obtain ⟨b, hb⟩ := hm
    have hp : (c.toCloseLock k .reader).potential =
      load c.calls + 4 + c.correlator.size := rfl
    have hp' : c.potential = load c.calls + 8 + c.correlator.size := by
      unfold potential; rw [hb]; rfl
    omega
  | call n => exact potential_stage_lt hm.1 nofun rfl rfl rfl (by simp [Stage.rank])

theorem potential_close_lt (hm : c.MayClose k t) :
    (c.toCloseLock k t).breakOff.potential < c.potential :=
  Nat.lt_of_le_of_lt (potential_breakOff _) (potential_toCloseLock_lt hm)

theorem potential_endReader (hc : d.calls = c.calls) (hk : d.correlator = c.correlator)
    (hr : d.reader = .ended) : d.potential + c.reader.rank = c.potential := by
  unfold potential
  rw [hc, hk, hr]
  simp only [ReaderStage.rank]
  omega

theorem potential_le_setStage (hs : c.stage n = s) (hd : s ≠ .dropped) (hc : d.calls = c.calls)
    (hr : d.reader = c.reader) (hk : d.correlator = c.correlator) (hl : s'.rank ≤ s.rank) :
    (d.setStage n s').potential ≤ c.potential := by
  have hp := potential_setStage hs hd hc s'
  rw [hr, hk] at hp
  omega

theorem rank_endsIn (h : k.EndsIn s) : s.rank ≤ 2 := by
  cases k with
  | finish r =>
    have hs : s = .done r := h
    simp [hs, Stage.rank]
  | join => rcases h with rfl | rfl <;> simp [Stage.rank]

theorem potential_establish_lt {e : Handshake.Exchange} {due : Nat} {session : Handshake.Session}
    {o : Except Failure Outcome} (hs : c.stage n = .handshake e due) (hc : d.calls = c.calls)
    (hk : d.correlator = c.correlator) :
    ((d.accept session).setStage n (.done o)).potential < c.potential := by
  refine potential_setStage_lt (d := d.accept session) hs nofun hc ?_
  have hx : (d.accept session).correlator = c.correlator := hk
  have hr : (d.accept session).reader.rank = 8 := rfl
  rw [hx, hr]
  simp only [Stage.rank]
  omega

theorem potential_dropSend_lt {s : Sending} (hs : c.stage n = .send s) :
    ((c.forgetAny s.waiter).yield.setStage n .dropped).potential < c.potential := by
  refine potential_setStage_lt hs nofun (calls_forgetAny c s.waiter) ?_
  have hz := size_forgetAny_le c s.waiter
  have hr := reader_forgetAny c s.waiter
  have hy : (c.forgetAny s.waiter).yield.reader = (c.forgetAny s.waiter).reader ∧
      (c.forgetAny s.waiter).yield.correlator = (c.forgetAny s.waiter).correlator := ⟨rfl, rfl⟩
  rw [hy.1, hy.2, hr]
  simp only [Stage.rank]
  omega

theorem potential_route_le (c : Client) (f : Frame) : (c.route f).potential ≤ c.potential := by
  rw [potential_eq (core_route c f)]
  have hr : (c.record (.routed f)).potential = c.potential := rfl
  unfold routed
  split
  next id reply _ =>
    split
    next slot hl =>
      have hz := size_remove_le (c.record (.routed f)).correlator id
      rw [potential_handOver, ← hr]
      unfold potential
      dsimp only
      omega
    next => exact Nat.le_of_eq hr
  next note _ =>
    unfold dispatch
    split <;> exact Nat.le_of_eq hr
  next => exact Nat.le_of_eq hr

/-- **No move takes a client farther from its end.** -/
theorem Move.potential_le (h : c.Move c') : c'.potential ≤ c.potential := by
  have hx : ∀ {d : Client}, d.calls = c.calls → d.reader = c.reader →
      d.correlator = c.correlator → d.potential ≤ c.potential := by
    intro d hc hr hk
    have hp : d.potential = c.potential := by
      unfold potential
      rw [hc, hr, hk]
    exact Nat.le_of_eq hp
  cases h with
  | quiet hq => exact Nat.le_of_eq (potential_eq hq).symm
  | tick millis => exact Nat.le_refl _
  | connect hs hj hu hb => exact potential_le_setStage hs nofun rfl rfl rfl (by simp [Stage.rank])
  | shake hs hr => exact potential_le_setStage hs nofun rfl rfl rfl (by simp [Stage.rank])
  | establish hs hr => exact Nat.le_of_lt (potential_establish_lt hs rfl rfl)
  | miss hs hr hp =>
    exact Nat.le_of_lt (potential_dropStream_lt hs nofun rfl rfl (by simp [Stage.rank]))
  | abandon hs => exact Nat.le_of_lt (potential_dropStream_lt hs nofun rfl rfl (by simp [Stage.rank]))
  | refuse hs hj hu hb =>
    exact Nat.le_of_lt (potential_dropStream_lt hs nofun rfl rfl (by simp [Stage.rank]))
  | turnDown hs hj hf => exact potential_le_setStage hs nofun rfl rfl rfl (by simp [Stage.rank])
  | tooLate hs hj hl => exact potential_le_setStage hs nofun rfl rfl rfl (by simp [Stage.rank])
  | leaveItAt hs hj ho => exact potential_le_setStage hs nofun rfl rfl rfl (by simp [Stage.rank])
  | waitForReader hs hj hl =>
    exact potential_le_setStage hs nofun rfl rfl rfl (by simp [Stage.rank])
  | joined hs hr => exact potential_le_setStage hs nofun rfl rfl rfl (by simp [Stage.rank])
  | unroute hs hj ha => exact hx rfl rfl rfl
  | lineUp hs hl hj => exact potential_le_setStage hs nofun rfl rfl rfl (by simp [Stage.rank])
  | turnAway hs hh hj hr => exact potential_le_setStage hs nofun rfl rfl rfl (by simp [Stage.rank])
  | pass hs hh hj => exact potential_le_setStage hs nofun rfl rfl rfl (by simp [Stage.rank])
  | begin he hf hw => exact Nat.le_of_lt (potential_begin he)
  | write hs hb => exact potential_le_setStage hs nofun rfl rfl rfl (by simp [Stage.rank])
  | sent hs hr => exact Nat.le_of_lt (potential_sent hs)
  | fail hs he hf => exact Nat.le_of_lt (potential_fails hs hf)
  | conclude hs hr => exact Nat.le_of_lt (potential_conclude hs)
  | @dropIdle n hs =>
    rcases hs with hs | hs <;>
      exact potential_le_setStage hs nofun rfl rfl rfl (by simp [Stage.rank])
  | dropLine hs =>
    rcases hs with hs | ⟨k, hs⟩ <;>
      exact potential_le_setStage hs nofun rfl rfl rfl (by simp [Stage.rank])
  | dropSend hs => exact Nat.le_of_lt (potential_dropSend_lt hs)
  | @dropWait n due w hs =>
    refine Nat.le_of_lt (potential_setStage_lt (d := c.forget w) hs nofun rfl ?_)
    have hz := size_leave_le c.correlator w
    have hd : (c.forget w).reader = c.reader ∧
        (c.forget w).correlator = c.correlator.leave w := ⟨rfl, rfl⟩
    rw [hd.1, hd.2]
    simp only [Stage.rank]
    omega
  | dropShutdown hs => exact potential_le_setStage hs nofun rfl rfl rfl (by simp [Stage.rank])
  | close hm hl => exact Nat.le_of_lt (potential_close_lt hm)
  | lineUpToClose hs hl => exact hx rfl rfl rfl
  | takeHalf hs hh hw => exact Nat.le_of_lt (potential_toShutdown_lt hs rfl rfl rfl)
  | findGone hs hh hw => exact hx rfl rfl rfl
  | shut hs => exact hx rfl rfl rfl
  | rest hs hl hk =>
    have hr := rank_endsIn hk
    rcases hs with hs | hs <;>
      exact potential_le_setStage hs nofun rfl rfl rfl (Nat.le_trans hr (by simp [Stage.rank]))
  | endReader hl =>
    rw [← potential_endReader (c := c) (d := { c with
      reader := .ended, write := if c.held then c.write else c.write.dropHalf }) rfl rfl rfl]
    exact Nat.le_add_right _ _
  | @keepReading b b' hr =>
    have hp : ({ c with reader := .reading b' } : Client).potential = c.potential := by
      unfold potential
      rw [hr]
      rfl
    exact Nat.le_of_eq hp
  | route hr ha f => exact potential_route_le c f
  | letGo hs hh => exact hx rfl rfl rfl

theorem Moves.potential_le (h : c.Moves c') : c'.potential ≤ c.potential := by
  induction h with
  | refl => exact Nat.le_refl _
  | tail _ hm ih => exact Nat.le_trans hm.potential_le ih

end DocWire.Client
