import DocWire.Proofs.Correlator.Desk

/-! # Both ends of a registration agree

A run is any series of steps at a desk and turns of waits. As long as no id is registered twice, what
whoever handed over a reply was told, and what the wait for it comes to, never contradict each other
(`Desk.agrees`). -/

namespace DocWire.Correlator

variable {j : List (Nat × Event)} {t : Nat} {reply : Reply}

theorem mem_slotEvents {e : Event} (he : e.ofSlot = true) :
    e ∈ slotEvents j t ↔ (t, e) ∈ j := by
  unfold slotEvents
  constructor
  · intro h
    obtain ⟨⟨k, e'⟩, hm, rfl⟩ := List.mem_map.1 h
    obtain ⟨hj, hk⟩ := List.mem_filter.1 hm
    obtain ⟨rfl, -⟩ : k = t ∧ _ := by simpa using hk
    exact hj
  · intro h
    exact List.mem_map.2 ⟨(t, e), List.mem_filter.2 ⟨h, by simp [he]⟩, rfl⟩

namespace Desk

variable {d : Desk} {ts : List Turn}

theorem moves_turn (h : Tidy d) (tu : Turn) :
    Moves (d.parties []) (d.told tu) ((d.turn tu).parties []) ∧ Tidy (d.turn tu) := by
  cases tu with
  | act s => exact does_act h s
  | poll n => exact moves_endWait h [] n

theorem moves_run (h : Tidy d) (ts : List Turn) :
    Moves (d.parties []) (d.journal ts) ((d.run ts).parties []) ∧ Tidy (d.run ts) := by
  induction ts generalizing d with
  | nil => exact ⟨.refl _, h⟩
  | cons tu ts ih =>
    obtain ⟨hm, ht⟩ := moves_turn h tu
    obtain ⟨hm', ht'⟩ := ih ht
    exact ⟨hm.trans hm', ht'⟩

theorem tidy_empty : Tidy empty := ⟨.nil, .nil, .nil, nofun⟩

theorem sound_empty : Sound [] (empty.parties []) where
  size := rfl
  keys := .nil
  held := .nil
  tickets := .nil
  named := nofun
  listed := nofun
  known := nofun
  ended := nofun
  told := nofun
  course := nofun
  kept := nofun

/-- A step that ends all waits that can end is a step and some turns of waits. -/
theorem step_eq_run (d : Desk) (s : Step) :
    ∃ ns : List Nat, (d.step s).2 = d.run (.act s :: ns.map .poll) := by
  obtain ⟨ns, hs⟩ := settle_eq (d.act s).2
  refine ⟨(d.act s).2.dueWaits ++ ns, hs.trans ?_⟩
  unfold run
  rw [List.foldl_cons, List.foldl_map]
  rfl

/-- A request is still there and will get a reply, however it is waited for. -/
inductive Awaits (d : Desk) (t : Nat) (reply : Reply) : Prop
  | pending {name : String} {w : Waiter} (hw : d.waiters.lookup name = some w) (ht : w.ticket = t)
      (hr : ∀ millis, (d.act (.wait name millis)).1 = .ended (.ok reply))
  | running {n : Nat} {v : Wait} (hv : d.waits.lookup n = some v) (ht : v.waiter.ticket = t)
      (hn : v.result = none)
      (hr : ((d.turn (.poll n)).waits.lookup n).bind (·.result) = some (.ok reply))

theorem awaits_of_mem_held (h : Tidy d) (ht : t ∈ (d.parties []).held)
    (hm : d.correlator.mailbox t = .filled reply) : d.Awaits t reply := by
  obtain ⟨w, hw, rfl⟩ := List.mem_map.1 ht
  have hout : ∀ {late bound}, d.correlator.outcome? w late bound = some (.ok reply) := by
    intro late bound
    unfold outcome?
    rw [hm]
  rcases List.mem_append.1 (show w ∈ d.waiters.map (·.2) ++ d.running.map (·.2.waiter) from hw)
    with hw | hw
  · obtain ⟨⟨name, w⟩, he, rfl⟩ := List.mem_map.1 hw
    have hl := (Entries.mem_iff_lookup h.waiters).1 he
    refine .pending hl rfl fun millis => ?_
    unfold act
    dsimp only
    rw [hl]
    dsimp only
    unfold waitHere
    dsimp only
    rw [hout]
  · obtain ⟨⟨n, v⟩, he, rfl⟩ := List.mem_map.1 hw
    obtain ⟨he, hn⟩ := List.mem_filter.1 he
    have hl := (Entries.mem_iff_lookup h.waits).1 he
    have hn : v.result = none := Option.isNone_iff_eq_none.1 hn
    refine .running hl rfl hn ?_
    have ht' := (moves_endWait h [] n).2
    have hx : (n, { v with result := some (.ok reply) }) ∈ (d.endWait n).waits := by
      unfold endWait
      rw [hl]
      dsimp only
      rw [hn, hout]
      exact List.mem_map.2 ⟨(n, v), he, by simp⟩
    change ((d.endWait n).waits.lookup n).bind _ = _
    rw [(Entries.mem_iff_lookup ht'.waits).1 hx]
    rfl

/-- What both ends of a registration have been told, and will be. Its slot is used up once: it takes
one reply, or refuses one, or is destroyed. A reply that was taken is what its wait comes back with,
and it does so unless the request is dropped or its wait given up; after a refusal the wait comes
back with no reply. The wait gives up at its deadline at the earliest, and fails only if the slot
was destroyed, in both cases without a reply having been taken. -/
structure Agrees (j : List (Nat × Event)) (d : Desk) (t : Nat) : Prop where
  once : (slotEvents j t).length ≤ 1
  accepted : ∀ {reply r due}, (t, .given reply true) ∈ j →
    (d.parties []).Returns j t r due → r = .ok reply
  obtains : ∀ {reply}, (t, .given reply true) ∈ j → (t, .dropped) ∉ j →
    d.Awaits t reply ∨ ∃ due, (d.parties []).Returns j t (.ok reply) due
  refused : ∀ {reply reply' due}, (t, .given reply false) ∈ j →
    ¬ (d.parties []).Returns j t (.ok reply') due
  timeout : ∀ {bound due}, (d.parties []).Returns j t (.error (.timeout bound)) due →
    due ≤ d.now ∧ ∀ reply, (t, .given reply true) ∉ j
  closed : ∀ {due}, (d.parties []).Returns j t (.error .connectionClosed) due →
    (t, .destroyed) ∈ j ∧ ∀ reply, (t, .given reply true) ∉ j

/-- **Both ends of every registration agree**, whatever is done at a desk, as long as no id is
registered twice. -/
theorem agrees {id : String} (hn : (ids (empty.journal ts)).Nodup)
    (ht : (t, .registered id) ∈ empty.journal ts) :
    Agrees (empty.journal ts) (empty.run ts) t := by
  obtain ⟨hm, htidy⟩ := moves_run tidy_empty ts
  have hs := sound_empty.moves hm hn
  rw [List.nil_append] at hs
  have hl : t < (ids (empty.journal ts)).length := hs.told _ ht
  generalize empty.run ts = d at hs htidy ⊢
  generalize empty.journal ts = j at hs hl ⊢
  have hc := hs.course t hl
  have hgiven : ∀ {reply found}, (t, .given reply found) ∈ j ↔
      .given reply found ∈ slotEvents j t := (mem_slotEvents rfl).symm
  refine ⟨hc.length_le_one, fun hg hr => (hc.of_accepted (hgiven.1 hg)).2 _ _ hr,
    fun {reply} hg hd => ?_, fun hg hr => ?_, fun hr => ?_, fun hr => ?_⟩
  · obtain ⟨hm, hx⟩ := hc.of_accepted (hgiven.1 hg)
    rcases hs.kept t hl with hh | ⟨r, due, hr⟩ | hk
    · exact .inl (awaits_of_mem_held htidy hh (hm hh))
    · exact .inr ⟨due, hx r due hr ▸ hr⟩
    · exact absurd hk hd
  · obtain ⟨bound, hb⟩ := hc.of_refused (hgiven.1 hg) hr
    cases hb
  · obtain ⟨hd, hx⟩ := hc.of_timeout hr
    exact ⟨hd, fun reply hg => hx reply (hgiven.1 hg)⟩
  · obtain ⟨hd, hx⟩ := hc.of_closed hr
    exact ⟨(mem_slotEvents rfl).1 hd, fun reply hg => hx reply (hgiven.1 hg)⟩

/-- The first request is answered when its time is up but its wait has not noticed; the slot of the
second is still out when all requests fail, and is refused after its wait has timed out. -/
def dealings : List Turn :=
  [.act (.register "1" "a" false), .act (.register "2" "b" true), .act (.take "2" "s"),
    .act (.startWait "a" 10), .act (.advance 20), .act (.deliver "1" ⟨.json, []⟩), .act .failAll,
    .poll 0, .act (.poll "a"), .act (.wait "b" 5), .act (.fulfill "s" ⟨.json, []⟩)]

theorem agrees_dealings : (ids (empty.journal dealings)).Nodup ∧
    (1, .registered "2") ∈ empty.journal dealings ∧
    (0, .returned (.ok ⟨.json, []⟩) 10) ∈ empty.journal dealings ∧
    Agrees (empty.journal dealings) (empty.run dealings) 1 := by
  have hj : empty.journal dealings = [(0, .registered "1"), (1, .registered "2"),
      (0, .given ⟨.json, []⟩ true), (0, .returned (.ok ⟨.json, []⟩) 10),
      (1, .returned (.error (.timeout (Span.ofMillis 5))) 25), (1, .given ⟨.json, []⟩ false)] := by
    rfl
  have hn : (ids (empty.journal dealings)).Nodup := by
    rw [hj]
    decide
  have ht : (1, .registered "2") ∈ empty.journal dealings := by
    rw [hj]
    simp
  refine ⟨hn, ht, ?_, agrees hn ht⟩
  rw [hj]
  simp

end Desk

end DocWire.Correlator
