import DocWire.Proofs.Client.Events
import DocWire.Proofs.Client.Notes
import DocWire.Proofs.Client.Onward

/-! # The ids of requests and subscriptions

A subscription has the id of the request that has opened it, so requests and subscriptions share
their ids. An id is a number that has been given to one call only, and it is either that of a request
or that of a subscription (`KeepsApart`). What carries this is that an id is registered at most once:
a move registers nothing but the id of the next request, and the counter does not go back. -/

namespace DocWire

theorem Registered.of_append {j l : List Incident} {n : Nat} {id : String}
    (h : Registered (j ++ l) n id) : Registered j n id ∨ .registered n id ∈ l := by
  induction l using List.reverseRecOn with
  | nil => exact .inl (by rwa [List.append_nil] at h)
  | append_singleton l i ih =>
    rw [← List.append_assoc] at h
    rcases registered_concat.1 h with rfl | ⟨h, -⟩
    · exact .inr (by simp)
    · exact (ih h).imp_right (List.mem_append_left _)

namespace Client

open DocWire.Correlator (Slot)

variable {c c' c₁ : Client} {config : Config} {n m : Nat} {id : String}

/-! ### Numbers that are used up -/

/-- **The counter of requests does not go back.** -/
theorem Move.nextId_le (hm : c.Move c') : c.write.nextId ≤ c'.write.nextId := by
  cases hm.advances with
  | aside ha => exact ha.nextId
  | begin he hs =>
    cases he with
    | request _ _ _ _ => exact Nat.le_succ _
    | farewell _ _ _ => exact Nat.le_refl _
  | sent hs => exact Nat.le_of_eq (WritePath.nextId_leave _).symm
  | @fail c₁ c' n waiter e hs he hf =>
    have hi : c.write.nextId ≤ c₁.write.nextId := by
      cases hs with
      | atOnce he =>
        cases he with
        | request _ _ _ _ => exact Nat.le_succ _
        | farewell _ _ _ => exact Nat.le_refl _
      | later hs => exact Nat.le_refl _
    have hx : ((c₁.record (.unsent n e)).yield.forgetAny waiter).write.nextId =
        c₁.write.nextId := by
      rw [nextId_forgetAny]
      exact WritePath.nextId_leave _
    cases hf <;> exact Nat.le_trans hi (Nat.le_of_eq hx.symm)
  | conclude hs hr => rw [write_conclude]
  | @drop c' n waiter hn hp ha =>
    have hi := ha.nextId
    rwa [show ((c.forgetAny waiter).setStage n .dropped).write.nextId = c.write.nextId from
      nextId_forgetAny c waiter] at hi
  | breakOff ha => exact ha.nextId
  | route f hq => rw [← write_eq hq, write_routed]; exact Nat.le_refl _

/-- The numbers of requests begin with 1. -/
structure Counting (c : Client) : Prop where
  next : 1 ≤ c.write.nextId
  issued : ∀ {n id}, .registered n id ∈ c.journal → ∃ k, 1 ≤ k ∧ id = toString k

theorem Counting.move (hm : c.Move c') (h : Counting c) : Counting c' where
  next := Nat.le_trans h.next hm.nextId_le
  issued := fun hi => by
    obtain ⟨l, hj, hl⟩ := hm.notes
    rw [hj] at hi
    rcases List.mem_append.1 hi with hi | hi
    · exact h.issued hi
    · exact ⟨_, h.next, (hl.registered hi).1⟩

theorem Onward.counting (h : c.Onward c') (hc : Counting c) : Counting c' :=
  h.induct Counting.move (fun _ hc => ⟨hc.next, hc.issued⟩) hc

theorem Possible.counting (h : Possible config c) : Counting c :=
  Onward.counting h ⟨Nat.le_refl _, nofun⟩

theorem Onward.nextId_le (h : c.Onward c') : c.write.nextId ≤ c'.write.nextId :=
  h.induct (P := fun d => c.write.nextId ≤ d.write.nextId)
    (fun hm hx => Nat.le_trans hx hm.nextId_le) (fun _ hx => hx) (Nat.le_refl _)

/-! ### Ids that are in use -/

/-- An id has been given out: it is a number, at least 1 and below that of the next request, and one
call and no other has been registered under it. -/
structure Issued (c : Client) (id : String) : Prop where
  number : ∃ k, 1 ≤ k ∧ k < c.write.nextId ∧ id = toString k
  call : ∃ n, ∀ m, .registered m id ∈ c.journal ↔ m = n

theorem Lawful.issued (h : Lawful c) (hc : Counting c) (hm : .registered n id ∈ c.journal) :
    c.Issued id := by
  obtain ⟨k, hk, rfl⟩ := h.correlated.numbered n id hm
  obtain ⟨k', hk', he⟩ := hc.issued hm
  obtain rfl := toString_inj he
  exact ⟨⟨k, hk', hk, rfl⟩, n, fun m => ⟨fun hx => h.correlated.sameCall hx hm, fun hx => hx ▸ hm⟩⟩

/-- What is said of an id in either registry. -/
theorem Lawful.registered_of_pending (h : Lawful c) (hp : c.correlator.contains id = true) :
    ∃ n, Registered c.journal n id := by
  obtain ⟨slot, hs⟩ := Option.isSome_iff_exists.1 hp
  obtain ⟨n, w, -, -, -, hg, -⟩ := h.correlated.of_lookup hs
  exact ⟨n, hg⟩

theorem Lawful.subscribed_of_routed (h : Lawful c) (hr : c.routes.contains id = true) :
    ∃ n, Subscribed c.journal n id := by
  obtain ⟨target, ht⟩ := Option.isSome_iff_exists.1 hr
  obtain ⟨n, -, hs⟩ := (h.feeding.routes id target).1 ht
  exact ⟨n, hs⟩

theorem Lawful.not_routed_of_pending (h : Lawful c) (hp : c.correlator.contains id = true) :
    c.routes.get? id = none := by
  obtain ⟨n, hg⟩ := h.registered_of_pending hp
  exact h.feeding.get?_eq_none h.correlated hg

/-- The id of the next request is not in use. -/
theorem Lawful.not_pending_nextId (h : Lawful c) : c.correlator.contains c.nextId = false := by
  cases hp : c.correlator.contains c.nextId with
  | false => rfl
  | true =>
    obtain ⟨n, hg⟩ := h.registered_of_pending hp
    obtain ⟨k, hk, he⟩ := h.correlated.numbered n _ hg.mem
    exact absurd (toString_inj he ▸ hk) (Nat.lt_irrefl _)

theorem Onward.not_pending (h : c.Onward c') (hl : Lawful c) (hi : .registered n id ∈ c.journal)
    (hp : c.correlator.contains id = false) : c'.correlator.contains id = false := by
  refine (h.induct_lawful (P := fun d => .registered n id ∈ d.journal ∧
    d.correlator.contains id = false) (fun {d d'} hl hm ⟨hi, hp⟩ => ?_) (fun _ _ hx => hx) hl
    ⟨hi, hp⟩).2
  obtain ⟨l, hj, hn⟩ := hm.notes
  have hi' : .registered n id ∈ d'.journal := hj ▸ List.mem_append_left _ hi
  refine ⟨hi', Bool.eq_false_iff.2 fun hp' => ?_⟩
  obtain ⟨m, hg⟩ := (hl.move hm).registered_of_pending hp'
  obtain rfl := (hl.move hm).correlated.sameCall hi' hg.mem
  rw [hj] at hg
  rcases hg.of_append with hg | hg
  · obtain ⟨w, -, -, -, hs, -⟩ := hl.correlated.of_registered hg
    simp [Correlator.contains, hs] at hp
  · obtain ⟨k, hk, he⟩ := hl.correlated.numbered n id hi
    rw [(hn.registered hg).1] at he
    exact absurd (toString_inj he ▸ hk) (Nat.lt_irrefl _)

/-- The acknowledgment of a request that is still registered opens its route. -/
theorem Lawful.accepts (h : Lawful c) {f : Frame} {reply : Reply} {slot : Slot Target}
    {target : Target} (hf : f.reply? = some (id, reply)) (he : f.tellsOfError = false)
    (hs : c.correlator.slots.lookup id = some slot) (ht : slot.subscription = some target) :
    (c.routes.subscribe id target).1 = true ∧ (c.route f).routes.get? id = some target := by
  have hp : c.correlator.contains id = true := by simp [Correlator.contains, hs]
  have hr : c.routes.get? id = none := h.not_routed_of_pending hp
  have hx : (c.routes.subscribe id target).1 = true := by
    simp [Routes.subscribe, Routes.contains, hr]
  refine ⟨hx, ?_⟩
  obtain ⟨n, w, -, -, rfl, -, hm⟩ := h.correlated.of_lookup hs
  have hm' : (c.correlator.remove id).mailbox w.ticket = .vacant := hm
  have hroute : (c.route f).routes = (c.routes.subscribe id target).2 := by
    have hs' : (c.record (.routed f)).correlator.slots.lookup id = some ⟨w.ticket, c.targetFor n⟩ :=
      hs
    rw [routes_eq (core_route c f), routed, hf]
    dsimp only
    rw [hs']
    dsimp only
    rw [routes_handOver hm', openRoute, he, ht]
    rfl
  rw [hroute, Routes.get?_subscribe, if_pos rfl, hr]
  rfl

/-- **Requests and subscriptions are kept apart.** No request is given the id of a request or
subscription again, one that is not registered any more is not registered again, and none is turned
away unless the connection is closed. The acknowledgment of a subscribe request opens its route. -/
structure KeepsApart (c : Client) : Prop where
  pending : ∀ id, c.correlator.contains id = true → c.Issued id
  routed : ∀ id, c.routes.contains id = true → c.Issued id
  apart : ∀ id, c.correlator.contains id = true → c.routes.contains id = false
  spent : ∀ id, c.correlator.contains id = true ∨ c.routes.contains id = true →
    ∀ c', c.Onward c' → c'.nextId ≠ id
  gone : ∀ id c' c'', c.correlator.contains id = true → c.Onward c' →
    c'.correlator.contains id = false → c'.Onward c'' → c''.correlator.contains id = false
  register : ∀ sub e, c.correlator.register c.nextId sub = .error e → e = .connectionClosed
  accepts : ∀ (f : Frame) (id : String) (reply : Reply) (slot : Slot Target) (target : Target),
    f.reply? = some (id, reply) → f.tellsOfError = false →
    c.correlator.slots.lookup id = some slot → slot.subscription = some target →
    (c.routes.subscribe id target).1 = true ∧ (c.route f).routes.get? id = some target

/-- **The ids of requests and subscriptions never collide.** -/
theorem Possible.keepsApart (h : Possible config c) : c.KeepsApart := by
  have hl := h.lawful
  have hpending : ∀ id, c.correlator.contains id = true → c.Issued id := fun id hp => by
    obtain ⟨n, hg⟩ := hl.registered_of_pending hp
    exact hl.issued h.counting hg.mem
  have hrouted : ∀ id, c.routes.contains id = true → c.Issued id := fun id hr => by
    obtain ⟨n, hs⟩ := hl.subscribed_of_routed hr
    exact hl.issued h.counting hs.mem
  refine ⟨hpending, hrouted, fun id hp => ?_, fun id hu c' h' hx => ?_,
    fun id c' c'' hp h' hn h'' => ?_, fun sub e he => ?_,
    fun f id reply slot target hf he hs ht => hl.accepts hf he hs ht⟩
  · simp [Routes.contains, hl.not_routed_of_pending hp]
  · obtain ⟨k, -, hk, rfl⟩ := (hu.elim (hpending id) (hrouted id)).number
    have hle := h'.nextId_le
    have hn : c'.write.nextId = k := toString_inj hx
    omega
  · obtain ⟨n, hg⟩ := hl.registered_of_pending hp
    exact h''.not_pending (hl.onward h') (h'.mem_journal hg.mem) hn
  · unfold Correlator.register at he
    rw [hl.not_pending_nextId] at he
    split at he
    · exact (Except.error.inj he).symm
    · cases he

/-- A client with an open subscription that has just sent a ping. -/
def calling : Client := following.perform (.start (.operation .ping))

theorem keepsApart_calling : calling.correlator.contains "3" = true ∧
    calling.routes.contains "2" = true ∧ calling.KeepsApart := by
  have h : Reachable .default calling := (reachable_performAll _ _).later (later_perform _ _)
  exact ⟨by decide +kernel, by decide +kernel, h.possible.keepsApart⟩

end Client

end DocWire
