import DocWire.Proofs.Client.Correlated
import DocWire.Proofs.Client.WritePath

/-! # Requests and their replies are kept apart

The moves that do matter to the wait for a reply: a call registers and sets out to send, its frame
is out or its sending fails, its wait ends, it is given up, a reply is handed over, and closing
begins. All but the last change what is known of one call only (`Correlated.step`). -/

namespace DocWire.Client

open DocWire.Correlator (Waiter Slot Mailbox)

variable {c c' c₁ : Client} {n m : Nat} {w : Waiter} {p : Phase}

/-! ### What a move does to the waits for replies -/

/-- A move as the calls see it that wait for replies, or will. Most moves are beside the point. -/
inductive Advances (c : Client) : Client → Prop
  | aside {c' : Client} (ha : Aside c c') : Advances c c'
  | begin {c₁ : Client} {n : Nat} {m : ClientMessage} {waiter : Option Waiter} {s : Sending}
      (he : c.Enters n m waiter c₁) (hs : s.waiter = waiter) :
      Advances c (c₁.setStage n (.send s))
  | sent {n : Nat} {s : Sending} (hs : c.stage n = .send s) :
      Advances c ((c.record (.sent n c.now)).yield.setStage n (c.afterSent s.waiter))
  | fail {c₁ c' : Client} {n : Nat} {waiter : Option Waiter} {e : Failure}
      (hs : c.Sends n waiter c₁) (he : IsSendFault e)
      (hf : c.Fails n e ((c₁.record (.unsent n e)).yield.forgetAny waiter) c') : Advances c c'
  | conclude {n due : Nat} {w : Waiter} {r : Except Failure Reply} (hs : c.stage n = .await w due)
      (hr : c.correlator.outcome? w (due ≤ c.now) c.config.requestTimeout = some r) :
      Advances c (c.conclude n w r)
  | drop {c' : Client} {n : Nat} {waiter : Option Waiter} (hn : n < c.calls.length)
      (hp : c.phase n = .sending waiter ∨ ∃ w due, c.phase n = .waiting w due ∧ waiter = some w)
      (ha : Aside ((c.forgetAny waiter).setStage n .dropped) c') : Advances c c'
  | breakOff {d : Client} (ha : Aside c d) : Advances c d.breakOff
  | route {c' : Client} (f : Frame) (hq : ((c.record (.routed f)).routed f).core = c'.core) :
      Advances c c'

/-- **Every move is one of these.** -/
theorem Move.advances (hm : c.Move c') : c.Advances c' := by
  have hsame : Aside c c := .refl c
  have hkeep : ∀ {d : Client}, d.journal = c.journal → d.correlator = c.correlator →
      d.config = c.config → d.now = c.now → d.write.nextId = c.write.nextId →
      d.calls = c.calls → Aside c d := fun hj hk hf hn hi hc =>
    .of_eq hj hk hf (Nat.le_of_eq hn.symm) (Nat.le_of_eq hi.symm) hc
  cases hm with
  | quiet hq => exact .aside (.of_core hq)
  | tick millis =>
    exact .aside (.of_eq rfl rfl rfl (Nat.le_add_right _ _) (Nat.le_refl _) rfl)
  | connect hs hj hu hb =>
    exact .aside (.setStage (hkeep rfl rfl rfl rfl rfl rfl) hs nofun (.refl _))
  | shake hs hr => exact .aside (.setStage (hkeep rfl rfl rfl rfl rfl rfl) hs nofun (.refl _))
  | establish hs hr => exact .aside (.setStage (hkeep rfl rfl rfl rfl rfl rfl) hs nofun (.ended _))
  | miss hs hr hp => exact .aside (.setStage (hkeep rfl rfl rfl rfl rfl rfl) hs nofun (.ended _))
  | abandon hs => exact .aside (.setStage (hkeep rfl rfl rfl rfl rfl rfl) hs nofun .dropped)
  | refuse hs hj hu hb =>
    exact .aside (.setStage (hkeep rfl rfl rfl rfl rfl rfl) hs nofun (.ended _))
  | turnDown hs hj hf => exact .aside (hsame.setStage hs nofun (.ended _))
  | tooLate hs hj hl => exact .aside (hsame.setStage hs nofun (.ended _))
  | leaveItAt hs hj ho => exact .aside (hsame.setStage hs nofun (.ended _))
  | waitForReader hs hj hl => exact .aside (hsame.setStage hs nofun (.refl _))
  | joined hs hr => exact .aside (hsame.setStage hs nofun (.ended _))
  | @unroute n id hs hj ha =>
    refine .aside ⟨⟨[.unsubscribed id], rfl, fun i hi => ?_⟩, rfl, rfl, Nat.le_refl _,
      Nat.le_refl _, fun _ _ => rfl, fun _ => .refl _⟩
    rw [List.mem_singleton.1 hi]
    exact ⟨rfl, fun _ => False.elim⟩
  | lineUp hs hl hj =>
    exact .aside (.setStage (hkeep rfl rfl rfl rfl (WritePath.nextId_acquire _ _) rfl) hs nofun
      (.refl _))
  | turnAway hs hh hj hr =>
    have hi : c.write.nextId ≤ c.useId.yield.write.nextId := by
      rw [yield, WritePath.nextId_leave]
      exact Nat.le_succ _
    exact .aside (.setStage (.of_eq rfl rfl rfl (Nat.le_refl _) hi rfl) hs nofun (.ended _))
  | pass hs hh hj =>
    exact .aside (.setStage (hkeep rfl rfl rfl rfl (WritePath.nextId_leave _) rfl) hs nofun (.ended _))
  | begin he hf hw => exact .begin he rfl
  | write hs hb => exact .aside (.setStage (hkeep rfl rfl rfl rfl rfl rfl) hs nofun (.refl _))
  | sent hs hr => exact .sent hs
  | fail hs he hf => exact .fail hs he hf
  | conclude hs hr => exact .conclude hs hr
  | dropIdle hs =>
    rcases hs with hs | hs
    · exact .aside (hsame.setStage hs nofun .dropped)
    · exact .aside (hsame.setStage hs nofun .dropped)
  | @dropLine n hs =>
    have ha : Aside c { c with write := c.write.withdraw (.call n) } :=
      hkeep rfl rfl rfl rfl (WritePath.nextId_withdraw _ _) rfl
    rcases hs with hs | ⟨k, hs⟩
    · exact .aside (ha.setStage hs nofun .dropped)
    · cases k with
      | finish r => exact .aside (ha.setStage hs nofun (.given r))
      | join => exact .aside (ha.setStage hs nofun .dropped)
  | @dropSend n s hs =>
    have hn := lt_of_stage_ne_dropped (by rw [hs]; nofun)
    have ha : Aside ((c.forgetAny s.waiter).setStage n .dropped)
        ((c.forgetAny s.waiter).yield.setStage n .dropped) :=
      .of_eq rfl rfl rfl (Nat.le_refl _) (Nat.le_of_eq (WritePath.nextId_leave _).symm) rfl
    exact .drop hn (.inl (phase_of_stage hs nofun)) ha
  | @dropWait n due w hs =>
    have hn := lt_of_stage_ne_dropped (by rw [hs]; nofun)
    have hp : ∃ w' due, c.phase n = .waiting w' due ∧ some w = some w' :=
      ⟨w, due, phase_of_stage hs nofun, rfl⟩
    exact .drop hn (.inr hp) (.refl _)
  | @dropShutdown n k hs =>
    have ha : Aside c { c with write := { c.write with half := .gone } } :=
      hkeep rfl rfl rfl rfl rfl rfl
    cases k with
    | finish r => exact .aside (ha.setStage hs nofun (.given r))
    | join => exact .aside (ha.setStage hs nofun .dropped)
  | @close t k hm hl =>
    refine .breakOff ?_
    cases t with
    | reader => exact hkeep rfl rfl rfl rfl rfl rfl
    | call n =>
      obtain ⟨hs, -, rfl⟩ := hm
      exact hsame.setStage hs nofun (.refl _)
  | lineUpToClose hs hl => exact .aside (hkeep rfl rfl rfl rfl (WritePath.nextId_acquire _ _) rfl)
  | @takeHalf t k hs hh hw =>
    have ha : Aside c { c with
        write := ({ c.write with half := .leaving } : WritePath).release } :=
      hkeep rfl rfl rfl rfl (WritePath.nextId_release _) rfl
    cases t with
    | reader => exact .aside (hkeep rfl rfl rfl rfl (WritePath.nextId_release _) rfl)
    | call n =>
      have hs : c.stage n = .closeLock k := hs
      refine .aside (ha.setStage hs nofun ?_)
      cases k <;> exact .refl _
  | findGone hs hh hw => exact .aside (hkeep rfl rfl rfl rfl (WritePath.nextId_release _) rfl)
  | shut hs => exact .aside (hkeep rfl rfl rfl rfl rfl rfl)
  | @rest n k s hs hl hk =>
    have ht : ∃ s₀, c.stage n = s₀ ∧ s₀ ≠ .dropped ∧ s₀.phase = (Stage.closeLock k).phase := by
      rcases hs with hs | hs
      · exact ⟨_, hs, nofun, rfl⟩
      · exact ⟨_, hs, nofun, by cases k <;> rfl⟩
    obtain ⟨s₀, hs, hd, hp⟩ := ht
    refine .aside (hsame.setStage hs hd ?_)
    rw [hp]
    cases k with
    | finish r =>
      have hk : s = .done r := hk
      rw [hk]
      exact .closed r
    | join =>
      rcases hk with rfl | rfl
      · exact .refl _
      · exact .ended _
  | endReader hl =>
    refine .aside (hkeep rfl rfl rfl rfl ?_ rfl)
    dsimp only
    split
    · rfl
    · exact WritePath.nextId_dropHalf _
  | keepReading hr => exact .aside (hkeep rfl rfl rfl rfl rfl rfl)
  | route hr ha f => exact .route f (core_route c f).symm
  | letGo hs hh =>
    refine .aside (hkeep rfl rfl rfl rfl ?_ rfl)
    dsimp only
    split
    · rfl
    · exact WritePath.nextId_dropHalf _

/-! ### What the invariant says of waiters and slots -/

namespace Correlated

theorem waits (h : Correlated c) (hw : (c.phase n).waiter? = some w) : c.Waits n w := by
  have ht := h.tells n
  cases hp : c.phase n with
  | sending waiter =>
    rw [hp] at ht hw
    exact ht.1 w hw
  | waiting w' due =>
    rw [hp] at ht hw
    cases hw
    exact ht.1
  | idle => rw [hp] at hw; cases hw
  | failing r => rw [hp] at hw; cases hw
  | ended r => rw [hp] at hw; cases hw
  | dropped => rw [hp] at hw; cases hw

theorem eq_of_id (h : Correlated c) {w' : Waiter} (hw : (c.phase n).waiter? = some w)
    (hw' : (c.phase m).waiter? = some w') (hi : w.id = w'.id) : n = m :=
  h.sameCall (h.waits hw).1 (hi ▸ (h.waits hw').1)

theorem lt_length (h : Correlated c) (hw : (c.phase n).waiter? = some w) :
    w.ticket < c.correlator.mailboxes.length := by
  refine Correlator.lt_length_of_mailbox_ne fun ha => ?_
  have hb := (h.waits hw).2
  rw [ha] at hb
  cases hb

/-- The slot that the id of a waiter leads to is its own. -/
theorem ticket_of_lookup (h : Correlated c) {slot : Slot Target}
    (hw : (c.phase n).waiter? = some w) (hl : c.correlator.slots.lookup w.id = some slot) :
    slot.ticket = w.ticket := by
  obtain ⟨m, w', hw', hi, ht⟩ := h.slots hl
  have hm := h.eq_of_id hw' hw hi
  subst hm
  rw [hw] at hw'
  cases hw'
  exact ht.symm

/-- A call that is registered has its slot, an empty mailbox, and no reply so far. -/
theorem of_registered (h : Correlated c) {id : String} (hg : Registered c.journal n id) :
    ∃ w, (c.phase n).waiter? = some w ∧ w.id = id ∧ c.correlator.mailbox w.ticket = .vacant ∧
      c.correlator.slots.lookup id = some ⟨w.ticket, c.targetFor n⟩ ∧
      ∀ r, ¬ Resolved c.journal n id r := by
  have ht := h.tells n
  have hv : ∀ {w : Waiter}, c.Waits n w → w.id = id ∧ c.correlator.mailbox w.ticket = .vacant ∧
      c.correlator.slots.lookup id = some ⟨w.ticket, c.targetFor n⟩ ∧
      ∀ r, ¬ Resolved c.journal n id r := by
    intro w hw
    have hi := h.sameId hw.1 hg.mem
    subst hi
    have hb := hw.2
    generalize hm : c.correlator.mailbox w.ticket = b at hb
    cases hb with
    | vacant _ hl hr => exact ⟨rfl, rfl, hl, hr⟩
    | filled hn => exact absurd hg hn
    | orphaned hn => exact absurd hg hn
  cases hp : c.phase n with
  | idle =>
    rw [hp] at ht
    exact absurd rfl (ht _ hg.mem)
  | sending waiter =>
    rw [hp] at ht
    cases waiter with
    | none => exact absurd hg.mem (ht.2.1 rfl id)
    | some w => exact ⟨w, rfl, hv (ht.1 w rfl)⟩
  | waiting w due =>
    rw [hp] at ht
    exact ⟨w, rfl, hv ht.1⟩
  | failing r =>
    rw [hp] at ht
    exact absurd hg (ht.1 id hg.mem).1
  | ended r =>
    rw [hp] at ht
    exact absurd hg (ht id hg.mem).1
  | dropped =>
    rw [hp] at ht
    exact absurd hg (ht.1 id hg.mem)

/-- A slot in the registry belongs to a call that is registered under its id. -/
theorem of_lookup (h : Correlated c) {id : String} {slot : Slot Target}
    (hl : c.correlator.slots.lookup id = some slot) :
    ∃ n w, (c.phase n).waiter? = some w ∧ w.id = id ∧ slot = ⟨w.ticket, c.targetFor n⟩ ∧
      Registered c.journal n id ∧ c.correlator.mailbox w.ticket = .vacant := by
  obtain ⟨n, w, hw, rfl, ht⟩ := h.slots hl
  have hb := (h.waits hw).2
  generalize hm : c.correlator.mailbox w.ticket = b at hb
  cases hb with
  | vacant hg hl' hr =>
    rw [hl] at hl'
    exact ⟨n, w, hw, rfl, Option.some.inj hl', hg, hm⟩
  | filled _ hn => rw [hl] at hn; cases hn
  | orphaned _ hn => rw [hl] at hn; cases hn

/-! ### Changing one call -/

/-- A move that changes what is known of one call only, and takes slots out of the registry at
most. -/
theorem step (h : Correlated c) (n : Nat)
    (hs : ∀ m, m ≠ n → Same c c' m (c.phase m).waiter? ∧ c'.phase m = c.phase m)
    (hn : c'.Tells n (c'.phase n))
    (hr : ∀ id, .registered n id ∈ c'.journal ↔ .registered n id ∈ c.journal)
    (hi : c.write.nextId ≤ c'.write.nextId)
    (hw : ∀ w, (c'.phase n).waiter? = some w → (c.phase n).waiter? = some w)
    (hl : ∀ id slot, c'.correlator.slots.lookup id = some slot →
      c.correlator.slots.lookup id = some slot ∧
        ∀ w, (c.phase n).waiter? = some w → w.id = id → (c'.phase n).waiter? = some w) :
    Correlated c' := by
  have hm : ∀ m id, .registered m id ∈ c'.journal ↔ .registered m id ∈ c.journal := by
    intro m id
    by_cases hmn : m = n
    · subst hmn; exact hr id
    · exact (hs m hmn).1.mem_iff rfl
  have hw' : ∀ m w, (c'.phase m).waiter? = some w → (c.phase m).waiter? = some w := by
    intro m w
    by_cases hmn : m = n
    · subst hmn; exact hw w
    · rw [(hs m hmn).2]; exact id
  constructor
  · intro m
    by_cases hmn : m = n
    · subst hmn; exact hn
    · rw [(hs m hmn).2]
      exact (hs m hmn).1.tells (h.tells m)
  · intro m id hg
    obtain ⟨k, hk, hid⟩ := h.numbered m id ((hm m id).1 hg)
    exact ⟨k, Nat.lt_of_lt_of_le hk hi, hid⟩
  · exact fun ha hb => h.sameId ((hm _ _).1 ha) ((hm _ _).1 hb)
  · exact fun ha hb => h.sameCall ((hm _ _).1 ha) ((hm _ _).1 hb)
  · intro id slot hx
    obtain ⟨hx, hk⟩ := hl id slot hx
    obtain ⟨m, w, hmw, hid, ht⟩ := h.slots hx
    refine ⟨m, w, ?_, hid, ht⟩
    by_cases hmn : m = n
    · subst hmn; exact hk w hmw hid
    · rw [(hs m hmn).2]; exact hmw
  · exact fun ha hb ht => h.apart (hw' _ _ ha) (hw' _ _ hb) ht

end Correlated

/-- For the other calls it is the same whether the waiter of a call has left. -/
theorem Same.forget (h : Correlated c) (hw : (c.phase n).waiter? = some w) (hm : m ≠ n)
    (hs : Same c c' m (c.phase m).waiter?) (hk : c'.correlator = c.correlator) :
    Same c (c'.forget w) m (c.phase m).waiter? := by
  have hid : ∀ w', (c.phase m).waiter? = some w' → w'.id ≠ w.id := fun w' hw' hi =>
    hm (h.eq_of_id hw' hw hi)
  refine hs.trans ⟨⟨[.left w.id], rfl, fun i hi => ?_⟩, rfl, rfl, Nat.le_refl _,
    fun w' hw' => ?_, fun w' hw' => ?_⟩
  · rw [List.mem_singleton.1 hi]
    refine ⟨nofun, fun id hg he => ?_⟩
    have he : w.id = id := he
    exact hm (h.sameCall ((hs.registered_iff id).1 hg).mem (he ▸ (h.waits hw).1))
  · have ht : w'.ticket ≠ w.ticket := fun ht => hm (h.apart hw' hw ht)
    refine (Correlator.mailbox_leave _ _ _).trans ?_
    rw [if_neg ht, if_neg]
    rintro ⟨⟨slot, hl, hs⟩, -⟩
    rw [hk] at hl
    exact ht (hs.trans (h.ticket_of_lookup hw hl))
  · refine (Correlator.lookup_leave _ _ _).trans ?_
    rw [if_neg (hid w' hw')]

theorem Same.forgetAny (h : Correlated c) {waiter : Option Waiter}
    (hw : (c.phase n).waiter? = waiter) (hm : m ≠ n) (hs : Same c c' m (c.phase m).waiter?)
    (hk : c'.correlator = c.correlator) :
    Same c (c'.forgetAny waiter) m (c.phase m).waiter? := by
  cases waiter with
  | none => exact hs
  | some w => exact .forget h hw hm hs hk

/-! ### A waiter leaves -/

theorem mem_forgetAny (c : Client) (waiter : Option Waiter) {i : Incident}
    (hi : i.caller? = some n) : i ∈ (c.forgetAny waiter).journal ↔ i ∈ c.journal := by
  cases waiter with
  | none => rfl
  | some w =>
    have hne : i ≠ .left w.id := fun h => by rw [h] at hi; cases hi
    simp [forgetAny, hne]

theorem nextId_forgetAny (c : Client) (waiter : Option Waiter) :
    (c.forgetAny waiter).write.nextId = c.write.nextId := by
  cases waiter <;> rfl

theorem job_forgetAny (c : Client) (waiter : Option Waiter) (n : Nat) :
    (c.forgetAny waiter).job n = c.job n := job_congr (calls_forgetAny c waiter) n

theorem lookup_forgetAny {waiter : Option Waiter} {id : String} {slot : Slot Target}
    (hl : (c.forgetAny waiter).correlator.slots.lookup id = some slot) :
    c.correlator.slots.lookup id = some slot ∧ ∀ w, waiter = some w → w.id ≠ id := by
  cases waiter with
  | none => exact ⟨hl, nofun⟩
  | some w =>
    have hx := Correlator.lookup_leave c.correlator w id
    have hl' : (c.correlator.leave w).slots.lookup id = some slot := hl
    rw [hx] at hl'
    split at hl'
    · cases hl'
    next hne => exact ⟨hl', fun w' hw' => by cases hw'; exact Ne.symm hne⟩

theorem not_registered_forgetAny {waiter : Option Waiter} {id : String}
    (hw : ∀ w, waiter = some w → w.id = id) (hn : waiter = none → ¬ Registered c.journal n id) :
    ¬ Registered (c.forgetAny waiter).journal n id := by
  cases waiter with
  | none => exact hn rfl
  | some w =>
    intro hg
    rcases registered_concat.1 hg with h | h
    · cases h
    · exact h.2 (hw w rfl)

/-! ### The moves -/

theorem some_ne {m n : Nat} (h : m ≠ n) : some n ≠ some m := fun he => h (Option.some.inj he).symm

theorem toString_inj {m n : Nat} (h : toString m = toString n) : m = n := by
  rw [Nat.toString_eq_ofList_toDigits, Nat.toString_eq_ofList_toDigits] at h
  have hd : Nat.toDigits 10 m = Nat.toDigits 10 n := String.ofList_injective h
  rw [← Nat.ofDigitChars_toDigits (b := 10) (n := m) (by decide) (by decide), hd,
    Nat.ofDigitChars_toDigits (by decide) (by decide)]

namespace Correlated

/-- A call that has nothing to do with replies so far has not been written down. -/
theorem unwritten (h : Correlated c) (hp : c.phase n = .idle) : ∀ i ∈ c.journal, i.caller? ≠ some n := by
  have ht := h.tells n
  rwa [hp] at ht

end Correlated

/-- A call registers its request and sets out to send it. -/
structure Registers (c : Client) (n : Nat) (w : Waiter) (m : ClientMessage) (c' : Client) : Prop where
  idle : c.phase n = .idle
  made : c.correlator.register c.nextId (c.targetFor n) = .ok (w, c'.correlator)
  journal : c'.journal = c.journal ++ [.registered n w.id] ++ [.sending n m]
  nextId : c'.write.nextId = c.write.nextId + 1
  config : c'.config = c.config
  now : c'.now = c.now
  job : ∀ i, c'.job i = c.job i
  phase : c'.phase n = .sending (some w)
  phases : ∀ i, i ≠ n → c'.phase i = c.phase i

namespace Registers

variable {message : ClientMessage}

theorem waiter_eq (hr : c.Registers n w message c') :
    w = ⟨c.nextId, c.correlator.mailboxes.length⟩ := (Correlator.register_ok hr.made).2.2.1

theorem mem_iff (hr : c.Registers n w message c') {id : String} :
    .registered m id ∈ c'.journal ↔ .registered m id ∈ c.journal ∨ m = n ∧ id = w.id := by
  rw [hr.journal]
  simp

theorem fresh_id (hr : c.Registers n w message c') (h : Correlated c) (m : Nat) :
    .registered m w.id ∉ c.journal := by
  intro hm
  obtain ⟨k, hk, hx⟩ := h.numbered m w.id hm
  rw [hr.waiter_eq] at hx
  exact Nat.lt_irrefl _ (toString_inj hx ▸ hk)

theorem fresh_ticket (hr : c.Registers n w message c') (h : Correlated c) {w' : Waiter}
    (hw : (c.phase m).waiter? = some w') : w'.ticket ≠ w.ticket := by
  intro hx
  have hl := h.lt_length hw
  rw [hx, hr.waiter_eq] at hl
  exact Nat.lt_irrefl _ hl

theorem waiter_cases (hr : c.Registers n w message c') {w' : Waiter}
    (hw : (c'.phase m).waiter? = some w') :
    m = n ∧ w' = w ∨ m ≠ n ∧ (c.phase m).waiter? = some w' := by
  by_cases hm : m = n
  · rw [hm, hr.phase] at hw
    exact .inl ⟨hm, (Option.some.inj hw).symm⟩
  · exact .inr ⟨hm, hr.phases m hm ▸ hw⟩

theorem same (hr : c.Registers n w message c') (h : Correlated c) (hm : m ≠ n) :
    Same c c' m (c.phase m).waiter? := by
  refine ⟨⟨[.registered n w.id] ++ [.sending n message], ?_, fun i hi => ?_⟩, hr.job m, hr.config,
    Nat.le_of_eq hr.now.symm, fun w' hw => ?_, fun w' hw => ?_⟩
  · rw [hr.journal, List.append_assoc]
  · rcases List.mem_append.1 hi with hi | hi <;> rw [List.mem_singleton.1 hi] <;>
      exact ⟨some_ne hm, fun _ _ => id⟩
  · exact (Correlator.mailbox_register hr.made _).trans (if_neg (hr.fresh_ticket h hw))
  · refine (Correlator.lookup_register hr.made _).trans (if_neg fun hx => hr.fresh_id h m ?_)
    rw [hr.waiter_eq, ← hx]
    exact (h.waits hw).1

theorem waits (hr : c.Registers n w message c') (h : Correlated c) : c'.Waits n w := by
  refine ⟨hr.mem_iff.2 (.inr ⟨rfl, rfl⟩), ?_⟩
  rw [Correlator.mailbox_register hr.made, if_pos rfl]
  refine .vacant ?_ ?_ fun r hx => ?_
  · rw [hr.journal]
    exact registered_concat.2 (.inr ⟨registered_concat.2 (.inl rfl), id⟩)
  · have hid : c.nextId = w.id := by rw [hr.waiter_eq]
    rw [Correlator.lookup_register hr.made, if_pos hid.symm]
    unfold targetFor
    rw [hr.job]
  · rw [hr.journal, resolved_concat_of_ne (i := .sending n message) nofun,
      resolved_concat_of_ne (i := .registered n w.id) nofun] at hx
    exact hr.fresh_id h n hx.mem

theorem not_mem (hr : c.Registers n w message c') (h : Correlated c) {i : Incident}
    (hc : i.caller? = some n) (hg : ∀ id, i ≠ .registered n id) (hs : ∀ m, i ≠ .sending n m) :
    i ∉ c'.journal := by
  intro hi
  rw [hr.journal] at hi
  rcases List.mem_append.1 hi with hi | hi
  · rcases List.mem_append.1 hi with hi | hi
    · exact h.unwritten hr.idle i hi hc
    · exact hg _ (List.mem_singleton.1 hi)
  · exact hs _ (List.mem_singleton.1 hi)

end Registers

namespace Correlated

theorem register (h : Correlated c) {message : ClientMessage}
    (hr : c.Registers n w message c') : Correlated c' where
  tells m := by
    by_cases hm : m = n
    · subst hm
      rw [hr.phase]
      exact ⟨fun w' hw' => Option.some.inj hw' ▸ hr.waits h, nofun,
        fun t => hr.not_mem h rfl nofun nofun, fun e => hr.not_mem h rfl nofun nofun,
        fun r => hr.not_mem h rfl nofun nofun⟩
    · rw [hr.phases m hm]
      exact (hr.same h hm).tells (h.tells m)
  numbered m id hm := by
    rw [hr.nextId]
    rcases hr.mem_iff.1 hm with hm | ⟨rfl, rfl⟩
    · obtain ⟨k, hk, hx⟩ := h.numbered m id hm
      exact ⟨k, Nat.lt_succ_of_lt hk, hx⟩
    · exact ⟨c.write.nextId, Nat.lt_succ_self _, by rw [hr.waiter_eq]; rfl⟩
  sameId {m id id'} hm hm' := by
    rcases hr.mem_iff.1 hm with hm | ⟨rfl, rfl⟩ <;> rcases hr.mem_iff.1 hm' with hm' | ⟨hx, rfl⟩
    · exact h.sameId hm hm'
    · exact absurd rfl (h.unwritten hr.idle _ (hx ▸ hm))
    · exact absurd rfl (h.unwritten hr.idle _ hm')
    · rfl
  sameCall {m m' id} hm hm' := by
    rcases hr.mem_iff.1 hm with hm | ⟨rfl, rfl⟩ <;> rcases hr.mem_iff.1 hm' with hm' | ⟨rfl, hx⟩
    · exact h.sameCall hm hm'
    · exact absurd (hx ▸ hm) (hr.fresh_id h m)
    · exact absurd hm' (hr.fresh_id h m')
    · rfl
  slots {id slot} hl := by
    rw [Correlator.lookup_register hr.made] at hl
    split at hl
    next hx =>
      cases hl
      exact ⟨n, w, by rw [hr.phase]; rfl, by rw [hr.waiter_eq, hx], rfl⟩
    next =>
      obtain ⟨m, w', hw, hid, ht⟩ := h.slots hl
      refine ⟨m, w', ?_, hid, ht⟩
      rw [hr.phases m fun hm => by rw [hm, hr.idle] at hw; cases hw]
      exact hw
  apart {m m' w₁ w₂} hw₁ hw₂ ht := by
    rcases hr.waiter_cases hw₁ with ⟨rfl, rfl⟩ | ⟨hm, hw₁⟩ <;>
      rcases hr.waiter_cases hw₂ with ⟨rfl, rfl⟩ | ⟨hm', hw₂⟩
    · rfl
    · exact absurd ht.symm (hr.fresh_ticket h hw₂)
    · exact absurd ht (hr.fresh_ticket h hw₁)
    · exact h.apart hw₁ hw₂ ht

/-- A call sets out to send: it has registered its request, if it makes one. -/
theorem enter (h : Correlated c) {message : ClientMessage} {waiter : Option Waiter} {s : Sending}
    (he : c.Enters n message waiter c₁) (hs : s.waiter = waiter) :
    Correlated (c₁.setStage n (.send s)) := by
  have hn : n < c.calls.length := (Sends.atOnce he).lt_length
  have hp : c.phase n = .idle := phase_of_stage he.stage_eq_lock nofun
  have hidle := h.unwritten hp
  have hp' : (c₁.setStage n (.send s)).phase n = .sending waiter := by
    rw [phase_setStage_self (he.calls_eq ▸ hn), ← hs]
    rfl
  have hph : ∀ m, m ≠ n → (c₁.setStage n (.send s)).phase m = c.phase m := fun m hm => by
    rw [phase_setStage_of_ne hm, phase_congr he.calls_eq]
  cases he with
  | farewell hst hh hj =>
    refine h.step n (fun m hm => ⟨?_, hph m hm⟩) ?_ (fun id => by simp) (Nat.le_refl _)
      (fun w hw => ?_) fun id slot hl => ⟨hl, fun w hw _ => ?_⟩
    · exact ((Same.refl c m _).record (i := .sending n _) (some_ne hm) fun _ _ => id).setStage n _
    · rw [hp']
      refine ⟨nofun, fun _ id hm => ?_, fun t hm => ?_, fun e hm => ?_, fun r hm => ?_⟩
      · exact hidle (.registered n id) (by simpa using hm) rfl
      · exact hidle (.sent n t) (by simpa using hm) rfl
      · exact hidle (.unsent n e) (by simpa using hm) rfl
      · exact hidle (.answered n r) (by simpa using hm) rfl
    · rw [hp'] at hw
      cases hw
    · rw [hp] at hw
      cases hw
  | @request op _ _ hst hh hj hr =>
    have ht : targetOf n op = c.targetFor n := by unfold targetFor; rw [hj]
    exact h.register ⟨hp, ht ▸ hr, rfl, rfl, rfl, rfl, fun m => job_setStage _ n m _, hp', hph⟩

theorem sent (h : Correlated c) {s : Sending} (hs : c.stage n = .send s) :
    Correlated ((c.record (.sent n c.now)).yield.setStage n (c.afterSent s.waiter)) := by
  have hn : n < c.calls.length := lt_of_stage_ne_dropped (by simp [hs])
  have hp : c.phase n = .sending s.waiter := phase_of_stage hs nofun
  have hp' : (((c.record (.sent n c.now)).yield.setStage n (c.afterSent s.waiter)).phase n) =
      (c.afterSent s.waiter).phase := phase_setStage_self hn _
  obtain ⟨hw, hf, hx, hu, ha⟩ := hp ▸ h.tells n
  have hwt : ∀ w, (c.afterSent s.waiter).phase.waiter? = some w ↔ s.waiter = some w := by
    intro w
    cases s.waiter <;> simp [afterSent, Stage.phase, Phase.waiter?]
  refine h.step n (fun m hm => ⟨?_, phase_setStage_of_ne hm _⟩) ?_ (fun id => ?_) (Nat.le_of_eq ?_)
    (fun w hw' => ?_) fun id slot hl => ⟨hl, fun w hw' _ => ?_⟩
  · have hi := (Same.refl c m (c.phase m).waiter?).record (i := .sent n c.now) (some_ne hm)
      fun _ _ => id
    exact hi.yield.setStage n _
  · rw [hp']
    have hg : ∀ id, Registered (c.journal ++ [.sent n c.now]) n id ↔ Registered c.journal n id :=
      fun id => by simp [registered_concat, Incident.Ends]
    have hr : ∀ id r, Resolved (c.journal ++ [.sent n c.now]) n id r ↔
        Resolved c.journal n id r := fun id r => resolved_concat_of_ne nofun
    cases hwx : s.waiter with
    | none =>
      intro id hm
      exact absurd (by simpa using hm) (hf hwx id)
    | some w =>
      refine ⟨(hw w hwx).congr (fun i hi => List.mem_append_left _ hi) (hg _) (hr _) rfl rfl
        (job_setStage _ n n _), ⟨c.now, by simp, rfl⟩, fun e hm => ?_,
        fun r hm => ?_⟩
      · exact hu e (by simpa using hm)
      · exact ha r (by simpa using hm)
  · simp
  · exact (WritePath.nextId_leave _).symm
  · rw [hp, Phase.waiter?]
    rw [hp'] at hw'
    exact (hwt w).1 hw'
  · rw [hp, Phase.waiter?] at hw'
    rw [hp']
    exact (hwt w).2 hw'

theorem depart (h : Correlated c) {d : Client} {waiter : Option Waiter} {st : Stage}
    (hn : n < c.calls.length) (hw : (c.phase n).waiter? = waiter)
    (hs : ∀ m, m ≠ n → Same c d m (c.phase m).waiter?) (hc : d.calls = c.calls)
    (hk : d.correlator = (c.forgetAny waiter).correlator)
    (hi : d.write.nextId = c.write.nextId)
    (hr : ∀ id, .registered n id ∈ d.journal ↔ .registered n id ∈ c.journal)
    (hst : st.phase.waiter? = none) (ht : (d.setStage n st).Tells n st.phase) :
    Correlated (d.setStage n st) := by
  have hp : (d.setStage n st).phase n = st.phase := phase_setStage_self (hc ▸ hn) st
  refine h.step n (fun m hm => ⟨(hs m hm).setStage n st, ?_⟩) (hp ▸ ht) hr (Nat.le_of_eq hi.symm)
    (fun w hw' => ?_) fun id slot hl => ?_
  · rw [phase_setStage_of_ne hm, phase_congr hc]
  · rw [hp, hst] at hw'
    cases hw'
  · have hl : d.correlator.slots.lookup id = some slot := hl
    rw [hk] at hl
    obtain ⟨hl, hne⟩ := lookup_forgetAny hl
    exact ⟨hl, fun w hw' hid => absurd hid (hne w (hw ▸ hw'))⟩

theorem fail (h : Correlated c) {s : Sending} {e : Failure} {st : Stage}
    (hs : c.stage n = .send s) (he : IsSendFault e)
    (hst : st.phase = .failing (failedOutcome (c.job n) e) ∨
      st.phase = .ended (failedOutcome (c.job n) e)) :
    Correlated (((c.record (.unsent n e)).yield.forgetAny s.waiter).setStage n st) := by
  have hn : n < c.calls.length := lt_of_stage_ne_dropped (by simp [hs])
  have hp : c.phase n = .sending s.waiter := phase_of_stage hs nofun
  have hpw : (c.phase n).waiter? = s.waiter := by rw [hp]; rfl
  obtain ⟨hw, hf, hx, hu, ha⟩ := hp ▸ h.tells n
  have hmem : ∀ {i : Incident}, i.caller? = some n →
      (i ∈ ((c.record (.unsent n e)).yield.forgetAny s.waiter).journal ↔
        i ∈ c.journal ∨ i = .unsent n e) := fun hi => (mem_forgetAny _ _ hi).trans (by simp)
  have hno : ∀ r, .answered n r ∉
      ((c.record (.unsent n e)).yield.forgetAny s.waiter).journal := fun r hr =>
    ha r (((hmem rfl).1 hr).resolve_right nofun)
  have hv : ∀ id,
      .registered n id ∈ ((c.record (.unsent n e)).yield.forgetAny s.waiter).journal →
      ¬ Registered ((c.record (.unsent n e)).yield.forgetAny s.waiter).journal n id ∧
        (((c.record (.unsent n e)).yield.forgetAny s.waiter).setStage n st).Verdict n id
          (failedOutcome (c.job n) e) := by
    intro id hm
    have hm' : .registered n id ∈ c.journal := ((hmem rfl).1 hm).resolve_right nofun
    refine ⟨not_registered_forgetAny (fun w hwx => ?_) fun hwx => absurd hm' (hf hwx id), ?_⟩
    · exact h.sameId (hw w hwx).1 hm'
    · have hj : (((c.record (.unsent n e)).yield.forgetAny s.waiter).setStage n st).job n =
          c.job n := by rw [job_setStage, job_forgetAny]; rfl
      rw [← hj]
      refine .unsent he ((hmem rfl).2 (.inr rfl)) (fun t ht => ?_) hno
      exact hx t (((hmem rfl).1 ht).resolve_right nofun)
  refine h.depart hn hpw (fun m hm => ?_) (calls_forgetAny _ _) ?_ ?_ (fun id => ?_) ?_ ?_
  · have hi := (Same.refl c m (c.phase m).waiter?).record (i := .unsent n e) (some_ne hm)
      fun _ _ => id
    exact .forgetAny h hpw hm hi.yield rfl
  · cases s.waiter <;> rfl
  · exact (nextId_forgetAny _ _).trans (WritePath.nextId_leave _)
  · exact ⟨fun hm => ((hmem rfl).1 hm).resolve_right nofun, fun hm => (hmem rfl).2 (.inl hm)⟩
  · rcases hst with hst | hst <;> rw [hst] <;> rfl
  · rcases hst with hst | hst <;> rw [hst]
    · exact ⟨hv, hno⟩
    · exact hv

/-- A call is given up while it sends or waits. -/
theorem drop (h : Correlated c) {waiter : Option Waiter} (hn : n < c.calls.length)
    (hp : c.phase n = .sending waiter ∨ ∃ w due, c.phase n = .waiting w due ∧ waiter = some w) :
    Correlated ((c.forgetAny waiter).setStage n .dropped) := by
  have ht := h.tells n
  have hpw : (c.phase n).waiter? = waiter := by
    rcases hp with hp | ⟨w, due, hp, rfl⟩ <;> rw [hp] <;> rfl
  have ha : ∀ r, .answered n r ∉ c.journal := by
    rcases hp with hp | ⟨w, due, hp, rfl⟩ <;> rw [hp] at ht
    · exact ht.2.2.2.2
    · exact ht.2.2.2
  have hf : waiter = none → ∀ id, .registered n id ∉ c.journal := by
    rcases hp with hp | ⟨w, due, hp, rfl⟩
    · rw [hp] at ht; exact ht.2.1
    · exact nofun
  refine h.depart hn hpw (fun m hm => .forgetAny h hpw hm (.refl c m _) rfl) (calls_forgetAny _ _)
    rfl (nextId_forgetAny _ _) (fun id => mem_forgetAny _ _ rfl) rfl ⟨fun id hm => ?_, fun reply hr =>
      ha reply ((mem_forgetAny c waiter rfl).1 hr)⟩
  have hm' : .registered n id ∈ c.journal := (mem_forgetAny c waiter rfl).1 hm
  refine not_registered_forgetAny (fun w hwx => ?_) fun hwx => absurd hm' (hf hwx id)
  exact h.sameId (h.waits (hpw.trans hwx)).1 hm'

theorem calls_reject (c : Client) (id : String) : (c.reject id).calls = c.calls := rfl

theorem correlator_reject (c : Client) (id : String) :
    (c.reject id).correlator = c.correlator := rfl

theorem write_reject (c : Client) (id : String) : (c.reject id).write = c.write := rfl

/-- A wait ends without a reply: only the waiter leaves. -/
theorem giveUp (h : Correlated c) {due : Nat} {e : Failure} (hs : c.stage n = .await w due)
    (hv : ∀ id, .registered n id ∈ c.journal → (c.forget w).Verdict n id (.error e)) :
    Correlated ((c.forget w).setStage n (.done (.error e))) := by
  have hpw : (c.phase n).waiter? = some w := by rw [phase_of_stage hs nofun]; rfl
  have hg := (h.waits hpw).1
  refine h.depart (lt_of_stage_ne_dropped (by simp [hs])) hpw
    (fun m hm => .forget h hpw hm (.refl c m _) rfl) rfl rfl rfl (fun id => by simp) rfl
    fun id hm => ?_
  have hm' : .registered n id ∈ c.journal := by simpa using hm
  have hend : ¬ Registered (c.forget w).journal n w.id := fun hx =>
    (registered_concat.1 hx).elim nofun fun hx => hx.2 rfl
  exact ⟨h.sameId hm' hg ▸ hend, Same.verdict ((Same.refl _ n none).setStage n _) (hv id hm')⟩

/-- A wait ends with a reply: the waiter leaves, and the route of the call goes if it turns the reply
down. -/
theorem receive (h : Correlated c) {due : Nat} {reply : Reply} (hs : c.stage n = .await w due)
    (hb : c.correlator.mailbox w.ticket = .filled reply) :
    Correlated (c.conclude n w (.ok reply)) := by
  have hn : n < c.calls.length := lt_of_stage_ne_dropped (by simp [hs])
  have hp : c.phase n = .waiting w due := phase_of_stage hs nofun
  have hpw : (c.phase n).waiter? = some w := by rw [hp]; rfl
  obtain ⟨⟨hg, hbox⟩, ⟨t, hx, -⟩, -, ha⟩ := hp ▸ h.tells n
  rw [hb] at hbox
  cases hbox
  next hg' hl hr =>
    have hend : ¬ Registered (c.journal ++ [.left w.id]) n w.id := fun hx =>
      (registered_concat.1 hx).elim nofun fun hx => hx.2 rfl
    have hti : ((c.forget w).record (.answered n reply)).Tells n
        (.ended (replyOutcome (c.job n) w.id reply)) := by
      intro id hm
      have hm' : .registered n id ∈ c.journal := by simpa using hm
      obtain rfl := h.sameId hm' hg
      refine ⟨not_registered_concat hend nofun, .answered (t := t) ?_ (fun r => ?_) fun r => ?_⟩
      · simp [hx]
      · simp [ha r]
      · exact (resolved_concat_of_ne (i := .answered n reply) nofun).trans
          ((resolved_concat_of_ne (i := .left _) nofun).trans (hr r))
    have hans : ∀ m, m ≠ n → Same c ((c.forget w).record (.answered n reply)) m
        (c.phase m).waiter? := fun m hm =>
      (Same.forget h hpw hm (.refl c m _) rfl).record (some_ne hm) fun _ _ => id
    have hrej : ∀ m waiter, Same ((c.forget w).record (.answered n reply))
        (((c.forget w).record (.answered n reply)).reject w.id) m waiter := fun m waiter =>
      ((Same.refl _ m waiter).record (i := .rejected w.id) nofun fun _ _ => id).trans
        (.of_eq rfl rfl rfl (Nat.le_refl _) rfl)
    unfold Client.conclude
    dsimp only
    split
    · refine h.depart hn hpw (fun m hm => (hans m hm).trans (hrej m _)) (calls_reject _ _)
        (correlator_reject _ _) (congrArg WritePath.nextId (write_reject _ _))
        (fun id => by simp [reject]) rfl ?_
      exact Same.tells ((hrej n none).setStage n _) hti
    · refine h.depart hn hpw hans rfl rfl rfl (fun id => by simp) rfl ?_
      exact Same.tells ((Same.refl _ n none).setStage n _) hti

/-- The wait of a call is over. -/
theorem conclude (h : Correlated c) {due : Nat} {r : Except Failure Reply}
    (hs : c.stage n = .await w due)
    (hr : c.correlator.outcome? w (due ≤ c.now) c.config.requestTimeout = some r) :
    Correlated (c.conclude n w r) := by
  have hp : c.phase n = .waiting w due := phase_of_stage hs nofun
  obtain ⟨⟨hg, hb⟩, ⟨t, hx, hd⟩, hu, ha⟩ := hp ▸ h.tells n
  have hres : ∀ {r}, Resolved (c.forget w).journal n w.id r ↔ Resolved c.journal n w.id r :=
    resolved_concat_of_ne nofun
  have hno : ∀ r, .answered n r ∉ (c.forget w).journal := by simpa using ha
  have hsent : .sent n t ∈ (c.forget w).journal := List.mem_append_left _ hx
  rcases Correlator.outcome?_eq_some hr with ⟨reply, hmb, rfl⟩ | ⟨hmb, rfl⟩ | ⟨hmb, he, rfl⟩
  · exact h.receive hs hmb
  · refine h.giveUp hs fun id hm => ?_
    obtain rfl := h.sameId hm hg
    rcases hmb with hmb | hmb <;> rw [hmb] at hb <;> cases hb
    next hg' hl hr' hc =>
      exact .cut hsent hno (fun r => mt hres.1 (hr' r)) (List.mem_append_left _ hc)
  · refine h.giveUp hs fun id hm => ?_
    obtain rfl := h.sameId hm hg
    rw [hmb] at hb
    cases hb
    next hg' hl hr' =>
      exact .late hsent hno (hd ▸ of_decide_eq_true he) fun r => mt hres.1 (hr' r)

end Correlated

/-! ### Closing begins -/

theorem mem_breakOff {i : Incident} (hi : i.caller? = some n) :
    i ∈ c.breakOff.journal ↔ i ∈ c.journal := by
  have hne : i ≠ .closing := fun hx => by rw [hx] at hi; cases hi
  change i ∈ c.journal ++ [.closing] ↔ i ∈ c.journal
  simp [hne]

theorem lookup_breakOff (c : Client) (id : String) :
    c.breakOff.correlator.slots.lookup id = none := by
  change c.correlator.failAll.2.slots.lookup id = none
  rw [Correlator.slots_failAll]
  rfl

/-- A mailbox that is not decided yet is decided now. -/
theorem Waits.breakOff (h : c.Waits n w) : c.breakOff.Waits n w := by
  have hres : ∀ {r}, Resolved c.breakOff.journal n w.id r ↔ Resolved c.journal n w.id r :=
    resolved_concat_of_ne (i := .closing) nofun
  have hend : ¬ Registered c.breakOff.journal n w.id := fun hg =>
    (registered_concat.1 hg).elim nofun fun hg => hg.2 trivial
  have hclosing : .closing ∈ c.breakOff.journal :=
    List.mem_append_right _ (List.mem_singleton_self _)
  obtain ⟨hm, hb⟩ := h
  refine ⟨(mem_breakOff rfl).2 hm, ?_⟩
  have hbox : c.breakOff.correlator.mailbox w.ticket = _ :=
    Correlator.mailbox_failAll c.correlator w.ticket
  rw [hbox]
  generalize c.correlator.mailbox w.ticket = b at hb
  cases hb with
  | vacant hg hl hr =>
    rw [if_pos ⟨⟨_, Entries.mem_of_lookup hl, rfl⟩, rfl⟩]
    exact .orphaned hend (lookup_breakOff c _) (fun r => mt hres.1 (hr r)) hclosing
  | filled hg hl hr =>
    rw [if_neg fun hx => nomatch hx.2]
    exact .filled hend (lookup_breakOff c _) fun r => hres.trans (hr r)
  | orphaned hg hl hr hc =>
    rw [if_neg fun hx => nomatch hx.2]
    exact .orphaned hend (lookup_breakOff c _) (fun r => mt hres.1 (hr r)) hclosing

theorem Same.breakOff (hn : ∀ id, ¬ Registered c.journal n id) : Same c c.breakOff n none :=
  ⟨⟨[.closing], rfl, fun i hi => by
    rw [List.mem_singleton.1 hi]
    exact ⟨nofun, fun id hg => absurd hg (hn id)⟩⟩, rfl, rfl, Nat.le_refl _, nofun, nofun⟩

theorem Tells.breakOff (h : c.Tells n p) : c.breakOff.Tells n p := by
  cases p with
  | idle => exact fun i hi hc => h i ((mem_breakOff hc).1 hi) hc
  | sending waiter => exact h.of_waits (.inl ⟨waiter, rfl⟩) mem_breakOff (fun _ _ => .breakOff) rfl
  | waiting w due => exact h.of_waits (.inr ⟨w, due, rfl⟩) mem_breakOff (fun _ _ => .breakOff) rfl
  | failing r => exact (Same.breakOff fun id hg => (h.1 id hg.mem).1 hg).tells h
  | ended r => exact (Same.breakOff fun id hg => (h id hg.mem).1 hg).tells h
  | dropped => exact (Same.breakOff fun id hg => h.1 id hg.mem hg).tells h

namespace Correlated

/-- Closing begins: every mailbox that is not decided yet is decided now. -/
theorem breakOff (h : Correlated c) : Correlated c.breakOff where
  tells n := (h.tells n).breakOff
  numbered n id hm := h.numbered n id ((mem_breakOff rfl).1 hm)
  sameId hm hm' := h.sameId ((mem_breakOff rfl).1 hm) ((mem_breakOff rfl).1 hm')
  sameCall hm hm' := h.sameCall ((mem_breakOff rfl).1 hm) ((mem_breakOff rfl).1 hm')
  slots hl := by
    rw [lookup_breakOff] at hl
    cases hl
  apart hw hw' ht := h.apart hw hw' ht

end Correlated

/-! ### A reply is handed over -/

/-- A frame is routed to the slot of a waiter. -/
structure HandsOver (c : Client) (f : Frame) (w : Waiter) (reply : Reply) (c' : Client) : Prop where
  frame : f.reply? = some (w.id, reply)
  journal : c'.journal = c.journal ++ [.routed f]
  lookup : ∀ id, c'.correlator.slots.lookup id =
    if id = w.id then none else c.correlator.slots.lookup id
  mailbox : ∀ ticket, c'.correlator.mailbox ticket =
    if ticket = w.ticket then .filled reply else c.correlator.mailbox ticket
  calls : c'.calls = c.calls
  config : c'.config = c.config
  now : c'.now = c.now
  nextId : c'.write.nextId = c.write.nextId

namespace HandsOver

variable {f : Frame} {reply : Reply}

theorem mem_iff (ho : c.HandsOver f w reply c') {i : Incident} (hi : i.caller? = some m) :
    i ∈ c'.journal ↔ i ∈ c.journal := by
  have hne : i ≠ .routed f := fun hx => by rw [hx] at hi; cases hi
  rw [ho.journal]
  simp [hne]

theorem same (ho : c.HandsOver f w reply c') (h : Correlated c)
    (hw : (c.phase n).waiter? = some w) (hr : Registered c.journal n w.id) (hm : m ≠ n) :
    Same c c' m (c.phase m).waiter? := by
  refine ⟨⟨_, ho.journal, fun i hi => ?_⟩, job_congr ho.calls m, ho.config,
    Nat.le_of_eq ho.now.symm, fun w' hw' => ?_, fun w' hw' => ?_⟩
  · rw [List.mem_singleton.1 hi]
    refine ⟨nofun, fun id hx ⟨r, he⟩ => hm ?_⟩
    rw [ho.frame] at he
    cases he
    exact h.sameCall hx.mem hr.mem
  · rw [ho.mailbox, if_neg fun ht => hm (h.apart hw' hw ht)]
  · rw [ho.lookup, if_neg fun hx => hm (h.eq_of_id hw' hw hx)]

theorem waits (ho : c.HandsOver f w reply c') (h : Correlated c)
    (hr : Registered c.journal n w.id) (hw : c.Waits n w) : c'.Waits n w := by
  obtain ⟨-, -, -, -, -, hno⟩ := h.of_registered hr
  refine ⟨(ho.mem_iff rfl).2 hw.1, ?_⟩
  rw [ho.mailbox, if_pos rfl]
  refine .filled (fun hx => ?_) ?_ fun r => ?_
  · rw [ho.journal] at hx
    exact (registered_concat.1 hx).elim nofun fun hx => hx.2 ⟨reply, ho.frame⟩
  · rw [ho.lookup, if_pos rfl]
  · rw [ho.journal, resolved_concat]
    constructor
    · rintro (hx | ⟨-, g, hx, hg⟩)
      · exact absurd hx (hno r)
      · cases hx
        rw [ho.frame] at hg
        cases hg
        rfl
    · rintro rfl
      exact .inr ⟨hr, f, rfl, ho.frame⟩

end HandsOver

namespace Correlated

theorem handsOver (h : Correlated c) {f : Frame} {reply : Reply} (ho : c.HandsOver f w reply c')
    (hw : (c.phase n).waiter? = some w) (hr : Registered c.journal n w.id) : Correlated c' := by
  have hph : ∀ m, c'.phase m = c.phase m := phase_congr ho.calls
  refine h.step n (fun m hm => ⟨ho.same h hw hr hm, hph m⟩) ?_ (fun id => ho.mem_iff rfl)
    (Nat.le_of_eq ho.nextId.symm) (fun w' hw' => by rwa [hph] at hw') fun id slot hs => ?_
  · have ht := h.tells n
    have hwaits : ∀ w', (c.phase n).waiter? = some w' → c.Waits n w' → c'.Waits n w' :=
      fun w' hw' => by
        obtain rfl := Option.some.inj (hw.symm.trans hw')
        exact ho.waits h hr
    rw [hph]
    refine ht.of_waits ?_ ho.mem_iff hwaits ho.config
    cases hp : c.phase n with
    | sending waiter => exact .inl ⟨waiter, rfl⟩
    | waiting w' due => exact .inr ⟨w', due, rfl⟩
    | idle => rw [hp] at hw; cases hw
    | failing r => rw [hp] at hw; cases hw
    | ended r => rw [hp] at hw; cases hw
    | dropped => rw [hp] at hw; cases hw
  · rw [ho.lookup] at hs
    split at hs
    · cases hs
    next hx => exact ⟨hs, fun w' hw' _ => by rw [hph]; exact hw'⟩

theorem handOver (h : Correlated c) {f : Frame} {id : String} {reply : Reply}
    {slot : Slot Target} (hf : f.reply? = some (id, reply))
    (hl : c.correlator.slots.lookup id = some slot)
    (hj : c'.journal = c.journal ++ [.routed f])
    (hk : c'.correlator = ((c.correlator.remove id).fulfill slot reply).2)
    (hc : c'.calls = c.calls) (hg : c'.config = c.config) (hn : c'.now = c.now)
    (hi : c'.write.nextId = c.write.nextId) : Correlated c' := by
  obtain ⟨n, w, hw, rfl, rfl, hr, hv⟩ := h.of_lookup hl
  refine h.handsOver ⟨hf, hj, fun other => ?_, fun ticket => ?_, hc, hg, hn, hi⟩ hw hr
  · rw [hk, Correlator.slots_fulfill]
    exact Correlator.lookup_remove _ _ _
  · rw [hk, Correlator.mailbox_fulfill]
    change (if ticket = w.ticket ∧ c.correlator.mailbox ticket = .vacant then _ else
      c.correlator.mailbox ticket) = _
    by_cases ht : ticket = w.ticket
    · simp [ht, hv]
    · simp [ht]

theorem pass (h : Correlated c) {f : Frame}
    (hf : ∀ p, f.reply? = some p → c.correlator.slots.lookup p.1 = none)
    (hj : ∃ l, c'.journal = c.journal ++ [.routed f] ++ l ∧
      ∀ i ∈ l, i.caller? = none ∧ ∀ id, ¬ i.Ends id)
    (hk : c'.correlator = c.correlator) (hc : c'.calls = c.calls) (hg : c'.config = c.config)
    (hn : c'.now = c.now) (hi : c'.write.nextId = c.write.nextId) : Correlated c' := by
  have hs : ∀ m, Same c c' m (c.phase m).waiter? := by
    intro m
    obtain ⟨l, hj, hl⟩ := hj
    refine ⟨⟨[.routed f] ++ l, by rw [hj, List.append_assoc], fun i hi => ?_⟩, job_congr hc m, hg,
      Nat.le_of_eq hn.symm, fun _ _ => by rw [hk], fun _ _ => by rw [hk]⟩
    rcases List.mem_append.1 hi with hi | hi
    · rw [List.mem_singleton.1 hi]
      refine ⟨nofun, fun id hx ⟨r, he⟩ => ?_⟩
      obtain ⟨w, -, -, -, hlk, -⟩ := h.of_registered hx
      rw [hf _ he] at hlk
      cases hlk
    · exact ⟨by simp [(hl i hi).1], fun id _ => (hl i hi).2 id⟩
  refine h.step 0 (fun m _ => ⟨hs m, phase_congr hc m⟩) ?_ (fun id => (hs 0).mem_iff rfl)
    (Nat.le_of_eq hi.symm) (fun w hw => by rwa [phase_congr hc] at hw) fun id slot hl =>
    ⟨hk ▸ hl, fun w hw _ => by rw [phase_congr hc]; exact hw⟩
  rw [phase_congr hc]
  exact (hs 0).tells (h.tells 0)

/-- A frame is routed. -/
theorem route (h : Correlated c) (f : Frame) : Correlated ((c.record (.routed f)).routed f) := by
  unfold routed
  cases hf : f.reply? with
  | some p =>
    obtain ⟨id, reply⟩ := p
    dsimp only
    cases hl : c.correlator.slots.lookup id with
    | none =>
      have hl' : (c.record (.routed f)).correlator.slots.lookup id = none := hl
      rw [hl']
      refine h.pass (f := f) (fun p hp => ?_) ⟨[], by simp, by simp⟩ rfl rfl rfl rfl rfl
      rw [hf] at hp
      cases hp
      exact hl
    | some slot =>
      have hl' : (c.record (.routed f)).correlator.slots.lookup id = some slot := hl
      rw [hl']
      exact h.handOver hf hl rfl rfl rfl rfl rfl rfl
  | none =>
    have hno : ∀ p, f.reply? = some p → c.correlator.slots.lookup p.1 = none := fun p hp => by
      rw [hf] at hp
      cases hp
    cases f.push? with
    | none => exact h.pass hno ⟨[], by simp, by simp⟩ rfl rfl rfl rfl rfl
    | some note =>
      dsimp only [dispatch]
      split
      next target _ =>
        refine h.pass hno ⟨[.notified target.call note.event], rfl, fun i hi => ?_⟩ rfl rfl rfl rfl rfl
        rw [List.mem_singleton.1 hi]
        exact ⟨rfl, fun _ => id⟩
      next => exact h.pass hno ⟨[], by simp, by simp⟩ rfl rfl rfl rfl rfl

/-- A sending fails, whether it is under way or has just been set out on. -/
theorem failAny (h : Correlated c) {waiter : Option Waiter} {e : Failure}
    (hs : c.Sends n waiter c₁) (he : IsSendFault e) {s : Stage}
    (hp : s.phase = .failing (failedOutcome (c.job n) e) ∨
      s.phase = .ended (failedOutcome (c.job n) e)) :
    Correlated (((c₁.record (.unsent n e)).yield.forgetAny waiter).setStage n s) := by
  cases hs with
  | later hs => exact h.fail hs he hp
  | atOnce hx =>
    have hn : n < c₁.calls.length := hx.calls_eq ▸ (Sends.atOnce hx).lt_length
    have hj := (job_setStage c₁ n n (.send ⟨[], 0, waiter, 0⟩)).trans (job_congr hx.calls_eq n)
    -- as if it had been under way with nothing to write
    have hf := (h.enter hx (s := ⟨[], 0, waiter, 0⟩) rfl).fail (stage_setStage_self hn _) he
      (by rw [hj]; exact hp)
    have hq : ((((c₁.setStage n (.send ⟨[], 0, waiter, 0⟩)).record (.unsent n e)).yield.forgetAny
        waiter).setStage n s) =
        (((c₁.record (.unsent n e)).yield.forgetAny waiter).setStage n s) := by
      cases waiter with
      | none => exact setStage_setStage ((c₁.record (.unsent n e)).yield) n _ _
      | some w => exact setStage_setStage ((c₁.record (.unsent n e)).yield.forget w) n _ _
    exact hq ▸ hf

/-- **The invariant is preserved by every move.** -/
theorem move (hm : c.Move c') (h : Correlated c) : Correlated c' := by
  cases hm.advances with
  | aside ha => exact ha.correlated h
  | begin he hs => exact h.enter he hs
  | sent hs => exact h.sent hs
  | fail hs he hf =>
    cases hf with
    | ends _ => exact h.failAny hs he (.inr rfl)
    | closes _ => exact (h.failAny hs he (.inl rfl)).breakOff
  | conclude hs hr => exact h.conclude hs hr
  | drop hn hp ha => exact ha.correlated (h.drop hn hp)
  | breakOff ha => exact (ha.correlated h).breakOff
  | route f hq => exact (Aside.of_core hq).correlated (h.route f)

theorem initial (config : Config) : Correlated (Client.initial config) := by
  have hp : ∀ n, (Client.initial config).phase n = .idle := fun n => rfl
  constructor
  · intro n
    rw [hp]
    exact nofun
  · exact nofun
  · exact nofun
  · exact nofun
  · exact nofun
  · exact nofun

end Correlated

theorem Possible.correlated {config : Config} (h : Possible config c) : Correlated c :=
  h.induct Correlated.move (fun job h => (Aside.addCall _ job).correlated h)
    (Correlated.initial config)

end DocWire.Client
