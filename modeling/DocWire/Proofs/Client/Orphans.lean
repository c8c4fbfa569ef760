import DocWire.Proofs.Client.Feeds
import DocWire.Proofs.Client.Sealed

/-! # Subscriptions and their callers

The reader opens the route of a subscription on behalf of its caller, before the caller knows. While
the caller is sending or waiting, the route waits with it; after that only a caller that has obtained
the subscription keeps it (`Kept`). A subscribe call that ends in any other way leaves no route
behind, and its callback is given nothing any more (`Possible.unrouted`). A caller that gives up is
the exception: if it does so after its request has been acknowledged, nobody closes the route. -/

namespace DocWire

open DocWire.Correlator (Waiter)

/-- Whether a call in a phase may have an open subscription under an id. -/
def Phase.Keeps (id : String) : Phase → Prop
  | .sending (some _) | .waiting _ _ | .dropped => True
  | .ended r => r = .ok (.result (.subscription id))
  | _ => False

/-- Whether a call has ended or been given up. -/
def Phase.IsOver : Phase → Prop
  | .ended _ | .dropped => True
  | _ => False

/-- Whether a call has come to its outcome, or been given up; it may still have to close the
connection before it ends. -/
def Phase.IsSettled : Phase → Prop
  | .failing _ | .ended _ | .dropped => True
  | _ => False

variable {n : Nat} {id : String}

theorem Phase.Keeps.fades {p p' : Phase} (h : p.Keeps id) (hf : p.Fades p') : p'.Keeps id := by
  cases hf with
  | refl => exact h
  | ended r => exact h.elim
  | dropped => exact h.elim
  | closed r => exact h.elim
  | given r => exact h.elim

theorem Phase.IsOver.fades {p p' : Phase} (h : p.IsOver) (hf : p.Fades p') : p' = p := by
  cases hf with
  | refl => rfl
  | ended r => exact h.elim
  | dropped => exact h.elim
  | closed r => exact h.elim
  | given r => exact h.elim

theorem Phase.IsOver.isSettled {p : Phase} (h : p.IsOver) : p.IsSettled := by
  cases p <;> trivial

theorem Phase.keeps_of_waiter? {p : Phase} {w : Waiter} (h : p.waiter? = some w) : p.Keeps id := by
  cases p with
  | sending waiter =>
    cases waiter with
    | none => cases h
    | some w => trivial
  | waiting w due => trivial
  | idle => cases h
  | failing r => cases h
  | ended r => cases h
  | dropped => cases h

namespace Client

variable {c c' c₁ d : Client} {m : Nat} {waiter : Option Waiter}

/-! ### Where subscriptions come from -/

/-- A subscription that is open after a move was open before it, or has been acknowledged by it. -/
theorem Feeds.subscribed (h : c.Feeds c') (hs : Subscribed c'.journal n id) :
    Subscribed c.journal n id ∨ Registered c.journal n id ∧ c'.outline = c.outline := by
  have routed : ∀ {f : Frame}, Subscribed (c.journal ++ [.routed f]) n id →
      Subscribed c.journal n id ∨ Registered c.journal n id := fun hs => by
    rcases subscribed_concat.1 hs with ⟨f, -, hg, -⟩ | ⟨hs, -⟩
    · exact .inr hg
    · exact .inl hs
  cases h with
  | aside hj hl hr =>
    rw [hj, subscribed_append hl] at hs
    exact .inl hs
  | shut hj hl hi hr =>
    rw [hj, subscribed_concat_of_ne (by rcases hi with rfl | rfl <;> nofun),
      subscribed_append hl] at hs
    exact .inl hs.1
  | cleared hj hl hr =>
    rw [hj] at hs
    exact absurd hs not_subscribed_closing
  | passed hj hp ha hr ho =>
    rw [hj] at hs
    exact (routed hs).imp_right fun hg => ⟨hg, ho⟩
  | @pushed f note target hf ht hj hr ho =>
    rw [hj, subscribed_concat_of_ne (i := .notified target.call note.event) nofun] at hs
    exact (routed hs.1).imp_right fun hg => ⟨hg, ho⟩
  | opened hj hg hf ht hr ho =>
    rw [hj] at hs
    exact (routed hs).imp_right fun hg => ⟨hg, ho⟩

/-! ### Who keeps a subscription -/

/-- **The invariant of subscriptions.** They are open only while the connection is, and a call that
has asked for one keeps it only until it ends with anything else. -/
structure Kept (c : Client) : Prop where
  live : ∀ {n id}, Subscribed c.journal n id → c.life = .connected
  kept : ∀ {n id}, c.targetFor n ≠ none → Subscribed c.journal n id → (c.phase n).Keeps id

/-- A reply that a call does not turn down gives it its subscription. -/
theorem replyOutcome_eq_subscription (ht : c.targetFor n ≠ none) {reply : Reply}
    (hr : turnsDown (c.job n) id reply = false) :
    replyOutcome (c.job n) id reply = .ok (.result (.subscription id)) := by
  unfold targetFor at ht
  cases hj : c.job n with
  | operation op =>
    rw [hj] at ht hr
    cases op with
    | subscribe text fails =>
      unfold replyOutcome
      unfold turnsDown at hr
      unfold Operation.answer at hr ⊢
      dsimp only at hr ⊢
      cases ho : Operation.open? reply with
      | error e =>
        rw [ho] at hr
        cases hr
      | ok m => rfl
    | _ => exact absurd rfl ht
  | _ =>
    rw [hj] at ht
    exact absurd rfl ht

theorem Correlated.outcome?_of_resolved (h : Correlated c) {w : Waiter} {due : Nat}
    {r : Except Failure Reply} {reply : Reply} (hs : c.stage n = .await w due)
    (hr : c.correlator.outcome? w (due ≤ c.now) c.config.requestTimeout = some r)
    (hx : Resolved c.journal n id reply) : r = .ok reply ∧ w.id = id := by
  have hp : (c.phase n).waiter? = some w := by
    rw [phase_of_stage hs nofun]
    rfl
  obtain ⟨hm, hb⟩ := h.waits hp
  obtain rfl := h.sameId hm hx.mem
  refine ⟨?_, rfl⟩
  rcases Correlator.outcome?_eq_some hr with ⟨reply', hmb, rfl⟩ | ⟨hmb | hmb, -⟩ | ⟨hmb, -, -⟩
  all_goals
    rw [hmb] at hb
    cases hb
  next hr' => rw [(hr' reply).1 hx]
  next hr' _ => exact absurd hx (hr' reply)
  next hr' => exact absurd hx (hr' reply)

/-- The end of its wait gives a call its subscription, or closes it. -/
theorem Kept.conclude (h : Kept c) (hc : Correlated c) {w : Waiter} {due : Nat}
    {r : Except Failure Reply} (hs : c.stage m = .await w due)
    (hr : c.correlator.outcome? w (due ≤ c.now) c.config.requestTimeout = some r)
    (ht : c.targetFor n ≠ none) (hb : Subscribed c.journal n id)
    (hx : Subscribed (c.conclude m w r).journal n id) :
    ((c.conclude m w r).phase n).Keeps id := by
  by_cases hn : n = m
  · subst hn
    have hl : n < c.calls.length := lt_of_stage_ne_dropped (by simp [hs])
    obtain ⟨reply, hy⟩ := hb.resolved
    obtain ⟨rfl, rfl⟩ := hc.outcome?_of_resolved hs hr hy
    unfold Client.conclude at hx ⊢
    dsimp only at hx ⊢
    split at hx
    next hd =>
      have hj : Subscribed (((c.forget w).record (.answered n reply)).journal ++ [.rejected w.id]) n
        w.id := hx
      rw [subscribed_concat_of_ne (i := .rejected w.id) nofun] at hj
      exact absurd rfl hj.2
    next hd =>
      have hp := phase_setStage_self (c := (c.forget w).record (.answered n reply)) hl
        (.done (replyOutcome (c.job n) w.id reply))
      rw [if_neg hd, hp]
      exact replyOutcome_eq_subscription ht (by simpa using hd)
  · obtain ⟨r', hq⟩ := outline_conclude c m w r
    rw [phase_congr (calls_of_outline hq), phase_setStage_of_ne hn]
    exact h.kept ht hb

/-- **The invariant is preserved by every move.** -/
theorem Kept.move (hm : c.Move c') (hc : Correlated c) (hg : Guarded c) (hl : Sealed c)
    (h : Kept c) : Kept c' := by
  have live : ∀ {n id}, Subscribed c'.journal n id → c.life = .connected := fun hx => by
    rcases (hc.feeds hm).subscribed hx with hx | ⟨hg, -⟩
    · exact h.live hx
    · exact hl.connected_of_registered hc hg
  refine ⟨fun hx => ?_, fun {n id} ht' hx => ?_⟩
  · cases hl.ages hg hm with
    | same he => exact he.trans (live hx)
    | opens hu he => exact he
    | closing ho he hj =>
      rw [hj] at hx
      exact absurd hx not_subscribed_closing
    | closed hp he => exact absurd (live hx) hp.ne_connected
  have ht : c.targetFor n ≠ none := targetFor_congr (hm.job_eq n) ▸ ht'
  rcases (hc.feeds hm).subscribed hx with hb | ⟨hg, ho⟩
  · have hk := h.kept ht hb
    -- who has not sent anything yet has not asked for a subscription
    have hne : ∀ {m}, c.stage m = .lock → n ≠ m := by
      rintro m hs rfl
      rw [phase_of_stage hs nofun] at hk
      exact hk
    cases hm.advances with
    | aside ha => exact hk.fades (ha.phase n)
    | begin he hs =>
      rw [phase_setStage_of_ne (hne he.stage_eq_lock), phase_congr he.calls_eq]
      exact hk
    | @sent m s hs =>
      by_cases hn : n = m
      · subst hn
        rw [phase_of_stage hs nofun] at hk
        have hn := lt_of_stage_ne_dropped (c := c) (n := n) (by simp [hs])
        rw [phase_setStage_self (c := (c.record (.sent n c.now)).yield) hn]
        revert hk
        change (Phase.sending s.waiter).Keeps id → _
        cases s.waiter with
        | none => exact False.elim
        | some w => exact fun _ => trivial
      · rw [phase_setStage_of_ne hn]
        exact hk
    | @fail c₁ c' m waiter e hs he hf =>
      cases hf with
      | ends hq =>
        rcases hq with hq | ⟨-, hq⟩
        · exact absurd (live hx) hq
        · have hc₁ := (calls_forgetAny (c₁.record (.unsent m e)).yield waiter).trans hs.calls_eq
          rw [phase_setStage_of_ne (hne hq), phase_congr hc₁]
          exact hk
      | closes _ => exact absurd hx not_subscribed_closing
    | conclude hs hr => exact h.conclude hc hs hr ht hb hx
    | @drop c' m waiter hn hp ha =>
      refine Phase.Keeps.fades ?_ (ha.phase n)
      rw [phase_setStage]
      split
      · trivial
      · rw [phase_congr (calls_forgetAny _ _)]
        exact hk
    | breakOff ha => exact absurd hx not_subscribed_closing
    | route f hq =>
      rw [phase_congr ((calls_eq hq).symm.trans (calls_of_outline (outline_routed _ f)))]
      exact hk
  · obtain ⟨w, hw, -⟩ := hc.of_registered hg
    have hp : c'.phase n = c.phase n := phase_congr (calls_of_outline ho) n
    exact Phase.keeps_of_waiter? (hp ▸ hw)

theorem Kept.addCall (h : Kept c) (hc : Correlated c) (job : Job) : Kept (c.addCall job) := by
  refine ⟨h.live, fun {n id} ht hs => ?_⟩
  have hn : c.calls[n]? ≠ none := fun hn => by
    have hi := hc.tells n
    rw [phase_eq_idle hn] at hi
    exact hi _ hs.mem rfl
  have ha := Aside.addCall c job
  rw [targetFor_congr (ha.job n hn)] at ht
  exact (h.kept ht hs).fades (ha.phase n)

theorem Kept.initial (config : Config) : Kept (Client.initial config) :=
  ⟨fun hs => absurd hs not_subscribed_nil, fun _ hs => absurd hs not_subscribed_nil⟩

theorem Possible.kept {config : Config} (h : Possible config c) : Kept c :=
  (h.induct (P := fun c => Correlated c ∧ Guarded c ∧ Sealed c ∧ Kept c)
    (fun hm ⟨hc, hg, hl, hk⟩ =>
      ⟨hc.move hm, hg.move hm, hl.move hm hg, hk.move hm hc hg hl⟩)
    (fun job ⟨hc, hg, hl, hk⟩ =>
      ⟨(Aside.addCall _ job).correlated hc, hg.addCall job, hl.addCall job, hk.addCall hc job⟩)
    ⟨Correlated.initial config, Guarded.initial config, Sealed.initial config,
      Kept.initial config⟩).2.2.2

/-! ### Calls that are over -/

/-- A call that has come to its outcome ends with it, unless it is given up. -/
theorem Move.phase_fades (hm : c.Move c') (h : (c.phase n).IsSettled) :
    (c.phase n).Fades (c'.phase n) := by
  have hne : ∀ {m s}, c.stage m = s → s ≠ .dropped → ¬ s.phase.IsSettled → n ≠ m := by
    rintro m s hs hd hx rfl
    rw [phase_of_stage hs hd] at h
    exact hx h
  have same : c'.phase n = c.phase n → (c.phase n).Fades (c'.phase n) := fun he =>
    he ▸ .refl _
  cases hm.advances with
  | aside ha => exact ha.phase n
  | begin he hs =>
    apply same
    rw [phase_setStage_of_ne (hne he.stage_eq_lock nofun nofun), phase_congr he.calls_eq]
  | sent hs => exact same (phase_setStage_of_ne (hne hs nofun nofun) _)
  | @fail c₁ c' m waiter e hs he hf =>
    apply same
    have hn : n ≠ m := by
      cases hs with
      | atOnce he => exact hne he.stage_eq_lock nofun nofun
      | later hs => exact hne hs nofun nofun
    have hc₁ := (calls_forgetAny (c₁.record (.unsent m e)).yield waiter).trans hs.calls_eq
    cases hf with
    | ends _ => rw [phase_setStage_of_ne hn, phase_congr hc₁]
    | closes _ => exact (phase_setStage_of_ne hn _).trans (phase_congr hc₁ n)
  | @conclude m due w r hs hr =>
    apply same
    obtain ⟨r', hq⟩ := outline_conclude c m w r
    rw [phase_congr (calls_of_outline hq), phase_setStage_of_ne (hne hs nofun nofun)]
  | @drop c' m waiter hm hp ha =>
    have hn : n ≠ m := by
      rintro rfl
      rcases hp with hp | ⟨w, due, hp, -⟩ <;> rw [hp] at h <;> exact h
    have hd : ((c.forgetAny waiter).setStage m .dropped).phase n = c.phase n := by
      rw [phase_setStage_of_ne hn, phase_congr (calls_forgetAny _ _)]
    exact hd ▸ ha.phase n
  | breakOff ha => exact ha.phase n
  | route f hq =>
    exact same (phase_congr
      ((Client.calls_eq hq).symm.trans (calls_of_outline (outline_routed _ f))) n)

theorem Move.phase_eq_of_isOver (hm : c.Move c') (h : (c.phase n).IsOver) :
    c'.phase n = c.phase n :=
  h.fades (hm.phase_fades h.isSettled)

theorem Correlated.not_registered_of_isOver (h : Correlated c) (ho : (c.phase n).IsOver) :
    ¬ Registered c.journal n id := fun hg => by
  obtain ⟨w, hw, -⟩ := h.of_registered hg
  cases hp : c.phase n with
  | ended r =>
    rw [hp] at hw
    cases hw
  | dropped =>
    rw [hp] at hw
    cases hw
  | _ =>
    rw [hp] at ho
    exact ho

theorem call_of_targetFor {target : Target} (h : c.targetFor n = some target) :
    target.call = n := by
  unfold targetFor at h
  split at h
  next op _ =>
    cases op with
    | subscribe text fails =>
      cases h
      rfl
    | _ => cases h
  next => cases h

/-- A callback is given something only while the subscription of its call is open. -/
theorem Feeds.notified (h : c.Feeds c') (hf : Feeding c) :
    ∃ l, c'.journal = c.journal ++ l ∧
      ∀ n event, .notified n event ∈ l → ∃ id, Subscribed c.journal n id := by
  have none : ∀ {l : List Incident}, (∀ i ∈ l, ¬ i.OfFeed) →
      ∀ n event, .notified n event ∈ l → ∃ id, Subscribed c.journal n id :=
    fun hl n event hm => absurd trivial (hl _ hm)
  cases h with
  | aside hj hl hr => exact ⟨_, hj, none hl⟩
  | shut hj hl hi hr =>
    refine ⟨_, hj.trans (List.append_assoc _ _ _), fun n event hm => ?_⟩
    rcases List.mem_append.1 hm with hm | hm
    · exact none hl n event hm
    · rw [← List.mem_singleton.1 hm] at hi
      rcases hi with hi | hi <;> cases hi
  | cleared hj hl hr =>
    refine ⟨_, hj.trans (List.append_assoc _ _ _), fun n event hm => ?_⟩
    rcases List.mem_append.1 hm with hm | hm
    · exact none hl n event hm
    · cases List.mem_singleton.1 hm
  | passed hj hp ha hr ho => exact ⟨_, hj, by simp⟩
  | @pushed f note target hp ht hj hr ho =>
    refine ⟨_, hj.trans (List.append_assoc _ _ _), fun n event hm => ?_⟩
    obtain ⟨m, htm, hs⟩ := (hf.routes _ _).1 ht
    rcases List.mem_append.1 hm with hm | hm
    · cases List.mem_singleton.1 hm
    · cases List.mem_singleton.1 hm
      rw [call_of_targetFor htm]
      exact ⟨_, hs⟩
  | opened hj hg hx ht hr ho => exact ⟨_, hj, by simp⟩

/-! ### No orphan routes -/

/-- Whether a call asks for a subscription. -/
def Subscribes (c : Client) (n : Nat) : Prop :=
  ∃ text fails, c.job n = .operation (.subscribe text fails)

theorem subscribes_iff : c.Subscribes n ↔ c.targetFor n ≠ none := by
  constructor
  · rintro ⟨text, fails, hj⟩
    unfold targetFor
    rw [hj]
    nofun
  · intro h
    unfold targetFor at h
    split at h
    next op hj =>
      cases op with
      | subscribe text fails => exact ⟨text, fails, hj⟩
      | _ => exact absurd rfl h
    next => exact absurd rfl h

/-- A subscribe call has come to its end, but not to a subscription: it has ended with something else,
or it has been given up before its request was acknowledged. -/
inductive Fruitless (c : Client) (n : Nat) : Prop
  | ended {r : Except Failure Outcome} (hs : c.stage n = .done r)
      (hr : ∀ id, r ≠ .ok (.result (.subscription id)))
  | dropped (hs : c.stage n = .dropped) (ha : ∀ id, ¬ Acknowledged c.journal n id)

/-- Nothing is left of the subscription of a call: no route leads to its callback, there is no route
for its id, and nothing has been given to its callback since a certain state. -/
structure Unrouted (c c' : Client) (n : Nat) : Prop where
  target : ∀ id target, c'.routes.get? id = some target → target.call ≠ n
  route : ∀ id, .registered n id ∈ c'.journal → c'.routes.get? id = none
  silent : ∃ l, c'.journal = c.journal ++ l ∧ ∀ event, .notified n event ∉ l

theorem Fruitless.isOver (h : c.Fruitless n) (hj : c.Subscribes n) : (c.phase n).IsOver := by
  obtain ⟨text, fails, hj⟩ := hj
  cases h with
  | ended hs hr =>
    rw [phase_of_stage hs nofun]
    trivial
  | dropped hs ha =>
    unfold phase
    unfold stage at hs
    unfold job at hj
    cases hc : c.calls[n]? with
    | none =>
      rw [hc] at hj
      cases hj
    | some call =>
      rw [hc] at hs
      have hs : call.stage = .dropped := hs
      simp [hs, Stage.phase, Phase.IsOver]

theorem Fruitless.not_subscribed (h : c.Fruitless n) (hk : Kept c) (hj : c.Subscribes n) :
    ¬ Subscribed c.journal n id := fun hs => by
  cases h with
  | ended hd hr =>
    have hx := hk.kept (subscribes_iff.1 hj) hs
    rw [phase_of_stage hd nofun] at hx
    exact hr id hx
  | dropped hd ha => exact ha id hs.acknowledged

/-- **No orphan routes**: once a subscribe call has ended without a subscription, or has been given up
before its request was acknowledged, nothing is left of it, whatever happens later. -/
theorem Possible.unrouted {config : Config} (h : Possible config c) (hj : c.Subscribes n)
    (hf : c.Fruitless n) (h' : c.Onward c') : c.Unrouted c' n := by
  have hover := hf.isOver hj
  have hlast := h'.induct
    (P := fun d => Correlated d ∧ Feeding d ∧ d.phase n = c.phase n ∧
      (∀ id, ¬ Subscribed d.journal n id) ∧
      ∃ l, d.journal = c.journal ++ l ∧ ∀ event, .notified n event ∉ l)
    (fun {d d'} hm ⟨hc, hd, hp, hn, l, hl, hx⟩ => ?_) (fun {d} job ⟨hc, hd, hp, hn, hx⟩ => ?_)
    ⟨h.correlated, h.feeding, rfl, fun id => hf.not_subscribed h.kept hj, [], by simp, nofun⟩
  · obtain ⟨hc, hd, -, hn, hx⟩ := hlast
    refine ⟨fun id target hr ht => ?_, fun id hg => ?_, hx⟩
    · obtain ⟨m, htm, hs⟩ := (hd.routes id target).1 hr
      rw [call_of_targetFor htm] at ht
      exact hn id (ht ▸ hs)
    · refine Option.eq_none_iff_forall_ne_some.2 fun target hr => ?_
      obtain ⟨m, -, hs⟩ := (hd.routes id target).1 hr
      exact hn id (hc.sameCall hs.mem hg ▸ hs)
  · have ho : (d.phase n).IsOver := hp ▸ hover
    have hfd := hc.feeds hm
    obtain ⟨l', hl', hx'⟩ := hfd.notified hd
    refine ⟨hc.move hm, hd.move hm hc, (hm.phase_eq_of_isOver ho).trans hp, fun id hs => ?_,
      l ++ l', by rw [hl', hl, List.append_assoc], fun event hm => ?_⟩
    · rcases hfd.subscribed hs with hs | ⟨hg, -⟩
      · exact hn id hs
      · exact hc.not_registered_of_isOver ho hg
    · rcases List.mem_append.1 hm with hm | hm
      · exact hx event hm
      · obtain ⟨id, hs⟩ := hx' n event hm
        exact hn id hs
  · have ha := Aside.addCall d job
    have ho : (d.phase n).IsOver := hp ▸ hover
    exact ⟨ha.correlated hc, hd.addCall hc job, (ho.fades (ha.phase n)).trans hp, hn, hx⟩

/-- A client whose subscribe request has been answered by something that is no acknowledgment. -/
def misled : Client :=
  (initial .default).performAll
    [.start .connect, .feed [.chunk ([0, 1, 1] ++ List.replicate 16 7)],
      .start (.operation (.subscribe "q" false)),
      .feed [.chunk [0, 0, 0, 5, 2, 1, 0x91, 0xa1, 0x31]]]

/-- A push of the first subscription: the deletion of nothing. -/
def firstPush : List UInt8 :=
  [0, 0, 0, 29, 3, 1, 0x83, 0xa2, 0x69, 0x64, 0xa1, 0x31, 0xa4, 0x74, 0x79, 0x70, 0x65, 0xa6, 0x63,
    0x68, 0x61, 0x6e, 0x67, 0x65, 0xa6, 0x63, 0x68, 0x61, 0x6e, 0x67, 0x65, 0x91, 0x03]

theorem fruitless_of_failed (h : (match c.stage n with
    | .done (.error _) => true
    | _ => false) = true) : c.Fruitless n := by
  split at h
  next e hs => exact .ended hs nofun
  next => cases h

theorem unrouted_misled : misled.Subscribes 1 ∧ misled.Fruitless 1 ∧
    misled.Unrouted (misled.perform (.feed [.chunk firstPush])) 1 := by
  have hj : misled.Subscribes 1 := subscribes_iff.2 (by decide +kernel)
  have hf : misled.Fruitless 1 := fruitless_of_failed (by decide +kernel)
  exact ⟨hj, hf, (reachable_performAll _ _).possible.unrouted hj hf (later_perform _ _).onward⟩

/-- A client whose subscribe call has been given up while its frame waited to be flushed, after the
peer had acknowledged the request. -/
def abandoned : Client :=
  (initial .default).performAll
    [.start .connect, .feed [.chunk ([0, 1, 1] ++ List.replicate 16 7)],
      .change ⟨none, none, none, some .waits, none⟩, .start (.operation (.subscribe "q" false)),
      .feed [.chunk [0, 0, 0, 5, 2, 1, 0x91, 0xa1, 0x31]], .cancel 1]

theorem mem_notified_of_any {j : List Incident} (h : (j.any fun
    | .notified n' _ => n' == n
    | _ => false) = true) : ∃ event, .notified n event ∈ j := by
  obtain ⟨i, hi, hb⟩ := List.any_eq_true.1 h
  split at hb
  next n' event =>
    rw [beq_iff_eq.1 hb] at hi
    exact ⟨event, hi⟩
  next => cases hb

/-- The route of a call that gives up after the acknowledgment stays, and so do its events. -/
theorem orphan_abandoned : abandoned.Subscribes 1 ∧ (abandoned.stage 1).isOpen = false ∧
    abandoned.routes.get? "1" = some ⟨1, false⟩ ∧
    (∃ event, .notified 1 event ∈ (abandoned.perform (.feed [.chunk firstPush])).journal) ∧
    ¬ abandoned.Unrouted (abandoned.perform (.feed [.chunk firstPush])) 1 := by
  have hr : (abandoned.perform (.feed [.chunk firstPush])).routes.get? "1" = some ⟨1, false⟩ := by
    decide +kernel
  refine ⟨subscribes_iff.2 (by decide +kernel), by decide +kernel, by decide +kernel,
    mem_notified_of_any (by decide +kernel), fun h => h.target "1" _ hr rfl⟩

end Client

end DocWire
