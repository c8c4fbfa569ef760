import DocWire.Proofs.Client.Draining
import DocWire.Proofs.Client.Numbering
import DocWire.Proofs.Client.Terminal
import DocWire.Proofs.Correlator.Parties

/-! # Requests under way

A slot leaves the registry in four ways: a reply is routed to it, its waiter leaves, its request is not
sent, and closing begins. Whichever comes first, the slot is gone after it, and it is there until then
(`Outstanding`), so what the registry holds are the requests that a call still waits for. As an id is
registered once, a reply that is routed after that is a reply to this request. -/

namespace DocWire

open DocWire.Correlator (Waiter Slot)

/-- A reply to the request of a call has been routed: one for its id, after it was registered. -/
def Replied (j : List Incident) (n : Nat) (id : String) : Prop :=
  ∃ before f since reply, j = before ++ .routed f :: since ∧ .registered n id ∈ before ∧
    f.reply? = some (id, reply)

variable {j : List Incident} {n : Nat} {id : String}

theorem Resolved.replied {reply : Reply} (h : Resolved j n id reply) : Replied j n id := by
  obtain ⟨before, f, since, hj, hg, hf⟩ := h
  exact ⟨before, f, since, reply, hj, hg.mem, hf⟩

theorem Registered.not_replied (h : Registered j n id)
    (hn : ((registrations j).map (·.2)).Nodup) : ¬ Replied j n id := by
  rintro ⟨before, f, since, reply, hj, hm, hf⟩
  obtain ⟨a, b, hab, hb⟩ := h
  obtain ⟨a', b', rfl⟩ := List.append_of_mem hm
  have hj' : j = a' ++ .registered n id :: (b' ++ .routed f :: since) := by
    rw [hj, List.append_assoc]
    rfl
  obtain rfl := (eq_of_registered hn hab hj').2
  exact hb (.routed f) (by simp) ⟨reply, hf⟩

/-! ### The ids in the registry -/

namespace Correlator

variable {κ : Type} {r r' : Correlator κ}

/-- No id has two slots. -/
def Keyed (r : Correlator κ) : Prop := (r.slots.map (·.1)).Nodup

theorem Keyed.of_sublist (h : r.Keyed) (hs : r'.slots.Sublist r.slots) : r'.Keyed :=
  h.sublist (hs.map _)

theorem Keyed.register {sub : Option κ} {w : Waiter} (h : r.Keyed)
    (hr : r.register id sub = .ok (w, r')) : r'.Keyed := by
  obtain ⟨-, hl, -, rfl⟩ := register_ok hr
  unfold Keyed
  rw [List.map_append]
  refine List.nodup_append.2 ⟨h, List.nodup_singleton _, fun a ha b hb he => ?_⟩
  obtain ⟨e, hm, rfl⟩ := List.mem_map.1 ha
  have hne := List.lookup_eq_none_iff.1 hl e hm
  rw [he, List.mem_singleton.1 hb] at hne
  simp at hne

theorem Keyed.remove (h : r.Keyed) (id : String) : (r.remove id).Keyed :=
  h.of_sublist List.filter_sublist

theorem Keyed.leave (h : r.Keyed) (w : Waiter) : (r.leave w).Keyed := by
  unfold Keyed
  rw [slots_leave]
  exact h.remove w.id

theorem Keyed.fulfill (h : r.Keyed) (slot : Slot κ) (reply : Reply) :
    (r.fulfill slot reply).2.Keyed := by
  unfold Keyed
  rwa [slots_fulfill]

theorem Keyed.failAll (r : Correlator κ) : r.failAll.2.Keyed := by
  unfold Keyed
  rw [slots_failAll]
  exact .nil

/-- An id is in the registry exactly if it stands among those of the slots. -/
theorem contains_iff_mem {r : Correlator κ} :
    r.contains id = true ↔ id ∈ r.slots.map (·.1) := by
  unfold contains
  rw [Option.isSome_iff_exists]
  constructor
  · rintro ⟨slot, hs⟩
    exact List.mem_map.2 ⟨_, Entries.mem_of_lookup hs, rfl⟩
  · intro hm
    obtain ⟨e, he, rfl⟩ := List.mem_map.1 hm
    cases hl : r.slots.lookup e.1 with
    | some slot => exact ⟨slot, rfl⟩
    | none =>
      have hne := List.lookup_eq_none_iff.1 hl e he
      simp at hne

end Correlator

namespace Client

variable {c c' c₁ : Client} {config : Config} {w : Waiter} {waiter : Option Waiter}

theorem keyed_forgetAny (h : c.correlator.Keyed) (waiter : Option Waiter) :
    (c.forgetAny waiter).correlator.Keyed := by
  cases waiter with
  | none => exact h
  | some w => exact h.leave w

theorem keyed_conclude (h : c.correlator.Keyed) (n : Nat) (w : Waiter)
    (r : Except Failure Reply) : (c.conclude n w r).correlator.Keyed := by
  cases r with
  | error e => exact h.leave w
  | ok reply =>
    unfold conclude
    dsimp only
    split
    · exact h.leave w
    · exact h.leave w

theorem Sends.keyed (hs : c.Sends n waiter c₁) (h : c.correlator.Keyed) : c₁.correlator.Keyed := by
  cases hs with
  | atOnce he =>
    cases he with
    | request hs hh hj hr => exact h.register hr
    | farewell hs hh hj => exact h
  | later hs => exact h

theorem keyed_routed (h : c.correlator.Keyed) (f : Frame) : (c.routed f).correlator.Keyed := by
  unfold routed
  split
  next id reply _ =>
    split
    next slot _ => exact (h.remove id).fulfill slot reply
    · exact h
  · unfold dispatch
    split <;> exact h
  · exact h

theorem Move.keyed (hm : c.Move c') (h : c.correlator.Keyed) : c'.correlator.Keyed := by
  cases hm.advances with
  | aside ha => rwa [ha.correlator]
  | begin he hs => exact (Sends.atOnce he).keyed h
  | sent hs => exact h
  | @fail c₁ c' n waiter e hs he hf =>
    cases hf with
    | ends _ => exact keyed_forgetAny (c := (c₁.record (.unsent n e)).yield) (hs.keyed h) waiter
    | closes _ => exact .failAll _
  | conclude hs hr => exact keyed_conclude h _ _ _
  | drop hn hp ha =>
    rw [ha.correlator]
    exact keyed_forgetAny h _
  | breakOff ha => exact .failAll _
  | route f hq =>
    rw [← correlator_eq hq]
    exact keyed_routed (c := c.record (.routed f)) h f

theorem Possible.keyed (h : Possible config c) : c.correlator.Keyed :=
  Onward.induct (P := fun c => c.correlator.Keyed) Move.keyed (fun _ hx => hx) h .nil

/-! ### What is outstanding -/

/-- A call still waits for the reply to the request that it has made under an id: it has neither
ended nor been given up, and nothing has answered or ended the request. -/
structure Outstanding (c : Client) (n : Nat) (id : String) : Prop where
  registered : .registered n id ∈ c.journal
  alive : (c.stage n).isOpen = true
  unanswered : ¬ Replied c.journal n id
  inTime : ∀ bound, c.stage n ≠ .done (.error (.timeout bound))
  sending : ∀ e, .unsent n e ∉ c.journal
  connected : .closing ∉ c.journal

theorem isOpen_of_waiter? (hw : (c.phase n).waiter? = some w) : (c.stage n).isOpen = true := by
  rcases stage_of_waiter? hw with ⟨s, hs, -⟩ | ⟨due, hs⟩ <;> rw [hs] <;> rfl

/-- A call whose mailbox is neither filled nor cut off has its slot. -/
theorem Waits.lookup (h : c.Waits n w) (hr : ¬ Replied c.journal n w.id)
    (hc : .closing ∉ c.journal) :
    c.correlator.slots.lookup w.id = some ⟨w.ticket, c.targetFor n⟩ := by
  obtain ⟨hg, hb⟩ := h
  cases hm : c.correlator.mailbox w.ticket <;> rw [hm] at hb <;> cases hb
  next hl _ => exact hl
  next reply _ _ hres => exact absurd ((hres reply).2 rfl).replied hr
  next _ _ _ hclosing => exact absurd hclosing hc

/-- **A call that has been registered, goes on and has had no reply has its slot**, with what its
subscription is to be routed to. -/
theorem Lawful.lookup (hl : Lawful c) (ht : Told c) (hg : .registered n id ∈ c.journal)
    (ha : (c.stage n).isOpen = true) (hr : ¬ Replied c.journal n id)
    (hc : .closing ∉ c.journal) :
    ∃ ticket, c.correlator.slots.lookup id = some ⟨ticket, c.targetFor n⟩ := by
  have htells := hl.correlated.tells n
  have hidle : c.phase n ≠ .idle := fun hp => by
    rw [hp] at htells
    exact htells _ hg rfl
  have hpast : ¬ c.life.IsPast := fun hp => by
    obtain ⟨before, after, hj, -⟩ := ht.closed hp
    exact hc (by rw [hj]; simp)
  have hwaits : ∀ {w}, (c.phase n).waiter? = some w →
      ∃ ticket, c.correlator.slots.lookup id = some ⟨ticket, c.targetFor n⟩ := by
    intro w hw
    have hx := hl.correlated.waits hw
    obtain rfl := hl.correlated.sameId hx.1 hg
    exact ⟨_, hx.lookup hr hc⟩
  have hfits : ∀ {s}, c.stage n = s → c.life.Allows s := fun hs => hs ▸ hl.closes.fits n
  cases hs : c.stage n with
  | done r => rw [hs] at ha; cases ha
  | dropped => rw [hs] at ha; cases ha
  | closeLock k => exact absurd (hfits hs) hpast
  | closeShutdown k => exact absurd (hfits hs) hpast
  | await w due =>
    refine hwaits (w := w) ?_
    rw [phase_of_stage hs nofun]
    rfl
  | send s =>
    have hp : c.phase n = .sending s.waiter := phase_of_stage hs nofun
    cases hw : s.waiter with
    | none =>
      rw [hp] at htells
      exact absurd hg (htells.2.1 hw id)
    | some w =>
      refine hwaits (w := w) ?_
      rw [hp, hw]
      rfl
  | _ => exact absurd (phase_of_stage hs nofun) hidle

theorem Lawful.outstanding (hl : Lawful c) (ht : Told c) (hn : Numbered c)
    (hg : Registered c.journal n id) : c.Outstanding n id := by
  obtain ⟨w, hw, -⟩ := hl.correlated.of_registered hg
  have hopen := isOpen_of_waiter? hw
  have htells := hl.correlated.tells n
  refine ⟨hg.mem, hopen, hg.not_replied hn.nodup, fun bound hs => ?_, fun e => ?_, ?_⟩
  · rw [hs] at hopen
    cases hopen
  · cases hp : c.phase n with
    | sending waiter =>
      rw [hp] at htells
      exact htells.2.2.2.1 e
    | waiting w' due =>
      rw [hp] at htells
      exact htells.2.2.1 e
    | _ => rw [hp] at hw; cases hw
  · exact ht.opened fun hp =>
      hp.ne_connected (hl.closes.connected_of_registered hl.correlated hg)

theorem Lawful.contains_iff (hl : Lawful c) (ht : Told c) (hn : Numbered c) (id : String) :
    c.correlator.contains id = true ↔ ∃ n, c.Outstanding n id := by
  constructor
  · intro hp
    obtain ⟨n, hg⟩ := hl.registered_of_pending hp
    exact ⟨n, hl.outstanding ht hn hg⟩
  · rintro ⟨n, h⟩
    obtain ⟨ticket, hs⟩ := hl.lookup ht h.registered h.alive h.unanswered h.connected
    unfold Correlator.contains
    rw [hs]
    rfl

/-- A call that takes a turn when its time is up is not in the registry after it. -/
theorem contains_turn_of_due {due : Nat} (hs : c.stage n = .await w due) (hd : due ≤ c.now) :
    (c.turn (.call n)).correlator.contains w.id = false := by
  have hd' : decide (due ≤ c.now) = true := by simpa using hd
  obtain ⟨r, hr⟩ : ∃ r, c.correlator.outcome? w (due ≤ c.now) c.config.requestTimeout = some r := by
    unfold Correlator.outcome?
    rw [hd']
    cases c.correlator.mailbox w.ticket <;> exact ⟨_, rfl⟩
  have hturn : c.turn (.call n) = { c with ready := c.ready.erase (.call n) }.endWait n w r := by
    have hs' : ({ c with ready := c.ready.erase (.call n) } : Client).stage n = .await w due := hs
    change ({ c with ready := c.ready.erase (.call n) } : Client).runCall n = _
    unfold runCall
    rw [hs']
    dsimp only
    unfold awaitReply
    rw [show ({ c with ready := c.ready.erase (.call n) } : Client).correlator.outcome? w
      (due ≤ c.now) c.config.requestTimeout = some r from hr]
  have hslots : ∀ (d : Client), (d.conclude n w r).correlator = d.correlator.leave w := fun d => by
    cases r with
    | error e => rfl
    | ok reply =>
      unfold conclude
      dsimp only
      split <;> rfl
  rw [hturn, endWait, correlator_eq (core_wakeDecided _), hslots]
  unfold Correlator.contains
  rw [Correlator.lookup_leave, if_pos rfl]
  rfl

/-- **What the registry holds.** An id is in it exactly if a call still waits for the reply to it,
and each is counted once; so without a call in progress there is none. A call whose time is up takes
its id out with its next turn. -/
structure Accounted (c : Client) : Prop where
  contains : ∀ id, c.correlator.contains id = true ↔ ∃ n, c.Outstanding n id
  size : ∃ ids : List String, ids.Nodup ∧ (∀ id, id ∈ ids ↔ ∃ n, c.Outstanding n id) ∧
    c.correlator.size = ids.length
  idle : (∀ n, (c.stage n).isOpen = false) → c.correlator.size = 0
  overdue : ∀ n w due, c.stage n = .await w due → due ≤ c.now →
    (c.turn (.call n)).correlator.contains w.id = false

/-- **No request is leaked.** -/
theorem Possible.accounted (h : Possible config c) : c.Accounted := by
  have hiff := h.lawful.contains_iff h.told h.numbered
  have hmem : ∀ id, id ∈ c.correlator.slots.map (·.1) ↔ ∃ n, c.Outstanding n id := fun id =>
    Correlator.contains_iff_mem.symm.trans (hiff id)
  refine ⟨hiff, ⟨_, h.keyed, hmem, (List.length_map _).symm⟩, fun hidle => ?_,
    fun n w due => contains_turn_of_due⟩
  refine List.length_eq_zero_iff.2 (List.eq_nil_iff_forall_not_mem.2 fun e he => ?_)
  obtain ⟨n, hn⟩ := (hmem e.1).1 (List.mem_map.2 ⟨e, he, rfl⟩)
  exact nomatch (hidle n).symm.trans hn.alive

/-- The ping that waits for its reply is in the registry until its caller gives it up. -/
theorem accounted_calling : calling.correlator.contains "3" = true ∧ calling.Accounted ∧
    (calling.perform (.cancel 4)).correlator.contains "3" = false ∧
    (calling.perform (.cancel 4)).Accounted := by
  have h : Reachable .default calling := (reachable_performAll _ _).later (later_perform _ _)
  exact ⟨by decide +kernel, h.possible.accounted, by decide +kernel,
    (h.later (later_perform _ _)).possible.accounted⟩

end Client

end DocWire
