import DocWire.Correlator.Script
import DocWire.Proofs.Correlator.Parties

/-! # What is done at a desk

A desk names the parties to its correlator. Forgetting the names (`Desk.parties`), whatever is done
at the desk is a series of moves, and what they tell can be read off the desk and the outcome of the
step (`Desk.told`). Waits may take their turns at any time, so also later than they could. -/

namespace DocWire.Correlator

/-- One thing that happens at a desk: a step, or a wait that has been started taking its turn. -/
inductive Turn where
  | act (s : Step)
  | poll (n : Nat)
  deriving Repr, Inhabited

/-- Whether a step has given back that it is so. -/
def Outcome.isYes : Outcome → Bool
  | .flag b => b
  | _ => false

namespace Desk

/-- Lets something happen. -/
def turn (d : Desk) : Turn → Desk
  | .act s => (d.act s).2
  | .poll n => d.endWait n

/-- The wait that can be asked for by a name. -/
def waitNamed? (d : Desk) (name : String) : Option Wait :=
  (d.waitNames.lookup name).bind fun n => d.waits.lookup n

/-- What a step tells of registrations, seen from the desk before it and from its outcome. A reply for
an id that has no slot is handed to none. -/
def told (d : Desk) : Turn → List (Nat × Event)
  | .poll _ => []
  | .act s =>
    let outcome := (d.act s).1
    match s with
    | .register id name _ =>
      match outcome with
      | .registered w =>
        (w.ticket, .registered id) ::
          (d.waiters.lookup name).toList.map fun old => (old.ticket, .dropped)
      | _ => []
    | .deliver id reply =>
      (d.correlator.slots.lookup id).toList.map fun slot =>
        (slot.ticket, .given reply outcome.isYes)
    | .fulfill name reply =>
      (d.slots.lookup name).toList.map fun slot => (slot.ticket, .given reply outcome.isYes)
    | .take id name =>
      if d.correlator.contains id then
        (d.slots.lookup name).toList.map fun old => (old.ticket, .destroyed)
      else []
    | .dropSlot name => (d.slots.lookup name).toList.map fun slot => (slot.ticket, .destroyed)
    | .failAll => d.correlator.slots.map fun e => (e.2.ticket, .destroyed)
    | .dropPending name => (d.waiters.lookup name).toList.map fun w => (w.ticket, .dropped)
    | .cancelWait name =>
      (d.waitNamed? name).toList.map fun w => (w.waiter.ticket, .dropped)
    | .wait name millis =>
      match d.waiters.lookup name, outcome with
      | some w, .ended r => [(w.ticket, .returned r (d.now + millis))]
      | _, _ => []
    | .poll name =>
      match d.waitNamed? name, outcome with
      | some w, .ended r => [(w.waiter.ticket, .returned r w.due)]
      | _, _ => []
    | .startWait _ _ | .advance _ | .callSubscription _ | .contains _ => []

/-- Lets one thing happen after the other. -/
def run (d : Desk) (ts : List Turn) : Desk := ts.foldl turn d

/-- All that is told on the way. -/
def journal : Desk → List Turn → List (Nat × Event)
  | _, [] => []
  | d, t :: ts => d.told t ++ (d.turn t).journal ts

/-! ### The parties at a desk -/

/-- The waits that have not ended. -/
def running (d : Desk) : List (Nat × Wait) := d.waits.filter fun e => e.2.result.isNone

/-- The waits that have ended. -/
def endings (d : Desk) : List Ending :=
  d.waits.filterMap fun e => e.2.result.map fun r => ⟨e.2.waiter.ticket, r, e.2.due⟩

/-- The parties to the correlator of a desk, with some requests that are waited for elsewhere. -/
def parties (d : Desk) (ws : List Waiter) : Parties Unit where
  correlator := d.correlator
  pending := ws ++ (d.waiters.map (·.2) ++ d.running.map (·.2.waiter))
  hands := d.slots.map (·.2)
  endings := d.endings
  now := d.now

/-- Nothing at a desk goes by a name that something else of its kind has. -/
structure Tidy (d : Desk) : Prop where
  waiters : (d.waiters.map (·.1)).Nodup
  slots : (d.slots.map (·.1)).Nodup
  waits : (d.waits.map (·.1)).Nodup
  started : ∀ e ∈ d.waits, e.1 < d.started

end Desk

variable {d : Desk} {n : Nat}

theorem Moves.single {κ : Type} {s s' : Parties κ} {l : List (Nat × Event)} (h : Move s l s') :
    Moves s l s' := (Moves.refl s).tail h

theorem Moves.trans {κ : Type} {s s' s'' : Parties κ} {j l : List (Nat × Event)}
    (h : Moves s j s') (h' : Moves s' l s'') : Moves s (j ++ l) s'' := by
  induction h' with
  | refl => rwa [List.append_nil]
  | tail _ hm ih =>
    rw [← List.append_assoc]
    exact ih.tail hm

/-- The order of the parties does not matter, and time may go by. -/
theorem Moves.reorder {κ : Type} {s s' s'' : Parties κ} {l : List (Nat × Event)}
    (h : Moves s l s') (hc : s''.correlator = s'.correlator) (hp : s''.pending.Perm s'.pending)
    (hh : s''.hands.Perm s'.hands) (he : s''.endings.Perm s'.endings) (hn : s'.now ≤ s''.now) :
    Moves s l s'' := by
  rw [← List.append_nil l]
  exact h.tail (.aside hc hp hh he hn)

namespace Desk

/-! ### Waits that take their turns -/

/-- The desk once a wait has ended with a result. -/
def endWith (d : Desk) (n : Nat) (w : Waiter) (r : Except Failure Reply) : Desk :=
  { d.leave w with
    waits := d.waits.map fun (k, u) => (k, if k = n then { u with result := some r } else u) }

/-- A wait takes its turn in vain, or it ends. -/
theorem endWait_cases (h : Tidy d) (n : Nat) :
    (d.endWait n = d ∧ ∀ e ∈ d.running, e.1 = n → d.now < e.2.due) ∨
      ∃ v r, d.waits.lookup n = some v ∧ v.result = none ∧
        d.correlator.outcome? v.waiter (v.due ≤ d.now) v.bound = some r ∧
        d.endWait n = d.endWith n v.waiter r := by
  have hrun : ∀ e ∈ d.running, e.1 = n → d.waits.lookup n = some e.2 ∧ e.2.result = none := by
    rintro ⟨k, v⟩ he rfl
    obtain ⟨he, hv⟩ := List.mem_filter.1 he
    exact ⟨(Entries.mem_iff_lookup h.waits).1 he, Option.isNone_iff_eq_none.1 hv⟩
  unfold endWait
  cases hl : d.waits.lookup n with
  | none =>
    refine .inl ⟨rfl, fun e he hn => ?_⟩
    cases hl.symm.trans (hrun e he hn).1
  | some v =>
    dsimp only
    cases hv : v.result with
    | some r =>
      refine .inl ⟨rfl, fun e he hn => ?_⟩
      obtain ⟨hx, hr⟩ := hrun e he hn
      cases hl.symm.trans hx
      cases hv.symm.trans hr
    | none =>
      cases ho : d.correlator.outcome? v.waiter (v.due ≤ d.now) v.bound with
      | some r => exact .inr ⟨v, r, rfl, hv, ho, by simp [endWith]⟩
      | none =>
        refine .inl ⟨by simp, fun e he hn => ?_⟩
        obtain ⟨hx, -⟩ := hrun e he hn
        cases hl.symm.trans hx
        exact Nat.lt_of_not_le (of_decide_eq_false (outcome?_eq_none ho).2)

theorem perm_setResult (h : Tidy d) {v u : Wait} (hl : d.waits.lookup n = some v) (f : Wait → Wait)
    (hf : f v = u) :
    (d.waits.map fun (k, x) => (k, if k = n then f x else x)).Perm
      ((n, u) :: d.waits.filter fun e => e.1 != n) := by
  refine ((Entries.perm_of_lookup h.waits hl).map _).trans ?_
  rw [List.map_cons]
  dsimp only
  rw [if_pos rfl, hf]
  refine .cons _ (.of_eq ?_)
  refine (List.map_congr_left fun e he => ?_).trans (List.map_id _)
  have hn : e.1 ≠ n := by simpa using (List.mem_filter.1 he).2
  simp [hn]

theorem Tidy.endWith (h : Tidy d) (n : Nat) (w : Waiter) (r : Except Failure Reply) :
    Tidy (d.endWith n w r) := by
  have hkeys : (d.endWith n w r).waits.map (·.1) = d.waits.map (·.1) := by
    simp [Desk.endWith, Function.comp_def]
  refine ⟨h.waiters, h.slots, by rw [hkeys]; exact h.waits, fun e he => ?_⟩
  have hm : e.1 ∈ d.waits.map (·.1) := hkeys ▸ List.mem_map.2 ⟨e, he, rfl⟩
  obtain ⟨e', he', hk⟩ := List.mem_map.1 hm
  rw [← hk]
  exact h.started e' he'

theorem pending_endWith (h : Tidy d) {v : Wait} {r : Except Failure Reply}
    (hl : d.waits.lookup n = some v) (hv : v.result = none) (ws : List Waiter) :
    (d.parties ws).pending.Perm
      (v.waiter :: ((d.endWith n v.waiter r).parties ws).pending) := by
  have hrun : (d.running.map (·.2.waiter)).Perm
      (v.waiter :: (d.endWith n v.waiter r).running.map (·.2.waiter)) := by
    have hp := ((Entries.perm_of_lookup h.waits hl).filter fun e => e.2.result.isNone).map
      (·.2.waiter)
    have hq := ((perm_setResult h hl (fun u => { u with result := some r }) rfl).filter
      fun e => e.2.result.isNone).map (·.2.waiter)
    simp only [List.filter_cons, hv, Option.isNone_none, Option.isNone_some, if_true,
      Bool.false_eq_true, if_false, List.map_cons] at hp hq
    exact hp.trans (.cons _ hq.symm)
  refine ((hrun.append_left (d.waiters.map (·.2))).append_left ws).trans ?_
  exact (List.perm_middle.append_left ws).trans List.perm_middle

theorem endings_endWith (h : Tidy d) {v : Wait} {r : Except Failure Reply}
    (hl : d.waits.lookup n = some v) (hv : v.result = none) (ws : List Waiter) :
    ((d.endWith n v.waiter r).parties ws).endings.Perm
      (⟨v.waiter.ticket, r, v.due⟩ :: (d.parties ws).endings) := by
  have hp := (Entries.perm_of_lookup h.waits hl).filterMap fun e =>
    e.2.result.map fun r => (⟨e.2.waiter.ticket, r, e.2.due⟩ : Ending)
  have hq := (perm_setResult h hl (fun u => { u with result := some r }) rfl).filterMap fun e =>
    e.2.result.map fun r => (⟨e.2.waiter.ticket, r, e.2.due⟩ : Ending)
  simp only [List.filterMap_cons, hv, Option.map_none, Option.map_some] at hp hq
  exact hq.trans (.cons _ hp.symm)

/-- **A wait that takes its turn** does nothing but end. -/
theorem moves_endWait (h : Tidy d) (ws : List Waiter) (n : Nat) :
    Moves (d.parties ws) [] ((d.endWait n).parties ws) ∧ Tidy (d.endWait n) := by
  rcases endWait_cases h n with ⟨hx, -⟩ | ⟨v, r, hl, hv, ho, hx⟩
  · rw [hx]
    exact ⟨.refl _, h⟩
  · rw [hx]
    have hm := Moves.single (.finish (pending_endWith h hl hv (r := r) ws) ho)
    exact ⟨hm.reorder rfl (.refl _) (.refl _) (endings_endWith h hl hv ws) (Nat.le_refl _),
      h.endWith n v.waiter r⟩

theorem moves_foldl_endWait (h : Tidy d) (ws : List Waiter) (ns : List Nat) :
    Moves (d.parties ws) [] ((ns.foldl endWait d).parties ws) ∧ Tidy (ns.foldl endWait d) := by
  induction ns generalizing d with
  | nil => exact ⟨.refl _, h⟩
  | cons n ns ih =>
    obtain ⟨hm, ht⟩ := moves_endWait h ws n
    obtain ⟨hm', ht'⟩ := ih ht
    exact ⟨hm.trans hm', ht'⟩

/-- Ending all waits that can end is a series of turns of waits, first of those that are due. -/
theorem settle_eq (d : Desk) :
    ∃ ns : List Nat, d.settle = (d.dueWaits ++ ns).foldl endWait d := by
  have hx : ∀ (ms ns : List Nat) (d : Desk), ∃ ks : List Nat,
      ms.foldl (fun d _ => ns.foldl endWait d) d = ks.foldl endWait d := by
    intro ms ns
    induction ms with
    | nil => exact fun d => ⟨[], rfl⟩
    | cons m ms ih =>
      intro d
      obtain ⟨ks, hk⟩ := ih (ns.foldl endWait d)
      exact ⟨ns ++ ks, by rw [List.foldl_cons, hk, List.foldl_append]⟩
  obtain ⟨ks, hk⟩ := hx ((d.dueWaits.foldl endWait d).waits.map (·.1))
    ((d.dueWaits.foldl endWait d).waits.map (·.1)) (d.dueWaits.foldl endWait d)
  exact ⟨ks, hk.trans List.foldl_append.symm⟩

theorem moves_settle (h : Tidy d) (ws : List Waiter) :
    Moves (d.parties ws) [] (d.settle.parties ws) ∧ Tidy d.settle := by
  obtain ⟨ns, hs⟩ := settle_eq d
  rw [hs]
  exact moves_foldl_endWait h ws _

theorem running_endWith (d : Desk) (n : Nat) (w : Waiter) (r : Except Failure Reply) :
    (d.endWith n w r).running = d.running.filter fun e => e.1 != n := by
  unfold running
  dsimp only [endWith]
  rw [List.filter_map, List.filter_filter]
  have hf : d.waits.filter ((fun e : Nat × Wait => e.2.result.isNone) ∘ fun (k, u) =>
        (k, if k = n then { u with result := some r } else u)) =
      d.waits.filter fun e => e.1 != n && e.2.result.isNone := by
    refine List.filter_congr fun e _ => ?_
    by_cases hk : e.1 = n
    · simp [hk]
    · simp [hk]
  rw [hf]
  refine (List.map_congr_left fun e he => ?_).trans (List.map_id _)
  have hk : e.1 ≠ n := by simpa using (Bool.and_eq_true_iff.1 (List.mem_filter.1 he).2).1
  simp [hk]

/-- A turn leaves no more waits running, and not its own if that is due. -/
theorem running_endWait (h : Tidy d) (n : Nat) :
    (d.endWait n).now = d.now ∧ (d.endWait n).running.Sublist d.running ∧
      ∀ e ∈ (d.endWait n).running, e.1 = n → d.now < e.2.due := by
  rcases endWait_cases h n with ⟨hx, hn⟩ | ⟨v, r, hl, hv, ho, hx⟩
  · rw [hx]
    exact ⟨rfl, .refl _, hn⟩
  · rw [hx, running_endWith]
    refine ⟨rfl, List.filter_sublist, fun e he hn => ?_⟩
    simpa [hn] using (List.mem_filter.1 he).2

theorem running_foldl_endWait (h : Tidy d) (ns : List Nat) :
    (ns.foldl endWait d).now = d.now ∧ (ns.foldl endWait d).running.Sublist d.running ∧
      ∀ e ∈ (ns.foldl endWait d).running, e.1 ∈ ns → d.now < e.2.due := by
  induction ns generalizing d with
  | nil => exact ⟨rfl, .refl _, nofun⟩
  | cons n ns ih =>
    obtain ⟨hn, hs, hd⟩ := running_endWait h n
    obtain ⟨hn', hs', hd'⟩ := ih (moves_endWait h [] n).2
    refine ⟨hn'.trans hn, hs'.trans hs, fun e he hk => ?_⟩
    rcases List.mem_cons.1 hk with hk | hk
    · exact hd e (hs'.subset he) hk
    · exact hn ▸ hd' e he hk

/-- No wait that is due is left running. -/
theorem running_settle (h : Tidy d) : d.settle.running.Sublist d.running ∧
    ∀ e ∈ d.settle.running, d.now < e.2.due := by
  obtain ⟨ns, hx⟩ := settle_eq d
  obtain ⟨-, hs, hd⟩ := running_foldl_endWait h (d.dueWaits ++ ns)
  rw [hx]
  refine ⟨hs, fun e he => Nat.lt_of_not_le fun hle => ?_⟩
  obtain ⟨hm, hr⟩ := List.mem_filter.1 (hs.subset he)
  refine Nat.not_lt_of_le hle (hd e he (List.mem_append_left _ (List.mem_map.2 ⟨e, ?_, rfl⟩)))
  exact List.mem_mergeSort.2 (List.mem_filter.2 ⟨hm, by simp [hr, hle]⟩)

theorem exists_of_nextDue? {t : Nat} (h : d.nextDue? = some t) : ∃ e ∈ d.running, e.2.due = t := by
  obtain ⟨⟨k, v⟩, he, hx⟩ := List.mem_filterMap.1 (List.min?_mem h)
  obtain ⟨hr, hx⟩ := Option.ite_none_right_eq_some.1 hx
  exact ⟨(k, v), List.mem_filter.2 ⟨he, hr⟩, Option.some.inj hx⟩

/-- **A wait in the foreground**: other waits end on the way, and then it ends itself. As each round
ends a wait or comes to the deadline, the rounds suffice. -/
theorem moves_waitHere (h : Tidy d) (w : Waiter) (bound : Span) (due fuel : Nat)
    (hf : d.running.length + (if due ≤ d.now then 0 else 1) < fuel) :
    Moves (d.parties [w]) [(w.ticket, .returned (waitHere w bound due fuel d).1 due)]
      ((waitHere w bound due fuel d).2.parties []) ∧ Tidy (waitHere w bound due fuel d).2 := by
  induction fuel generalizing d with
  | zero => omega
  | succ fuel ih =>
    unfold waitHere
    cases ho : d.correlator.outcome? w (due ≤ d.now) bound with
    | some r =>
      have hm : Move (d.parties [w]) [] _ := .finish (.refl _) ho
      have hm' := (Moves.single hm).tail (.report (.refl _))
      exact ⟨hm', h.waiters, h.slots, h.waits, h.started⟩
    | none =>
      have hlate : d.now < due :=
        Nat.lt_of_not_le (of_decide_eq_false (outcome?_eq_none ho).2)
      rw [if_neg (Nat.not_le_of_lt hlate)] at hf
      -- the clock moves on
      have ht : ∀ t, Tidy { d with now := max t d.now } := fun t =>
        ⟨h.waiters, h.slots, h.waits, h.started⟩
      have hm : ∀ t, Moves (d.parties [w]) [] (parties { d with now := max t d.now } [w]) :=
        fun t => .single (.aside rfl (.refl _) (.refl _) (.refl _) (Nat.le_max_right _ _))
      -- to the deadline,
      have late := ih (ht due) (by
        rw [if_pos (Nat.le_max_left _ _)]
        exact Nat.lt_of_succ_lt_succ hf)
      -- or to that of another wait, which ends
      have soon : ∀ e ∈ d.running, Moves (d.parties [w])
          [(w.ticket, .returned
            (waitHere w bound due fuel (settle { d with now := max e.2.due d.now })).1 due)]
          ((waitHere w bound due fuel (settle { d with now := max e.2.due d.now })).2.parties []) ∧
          Tidy (waitHere w bound due fuel (settle { d with now := max e.2.due d.now })).2 := by
        intro e he
        obtain ⟨hm', ht'⟩ := moves_settle (ht e.2.due) [w]
        obtain ⟨hs, hd⟩ := running_settle (ht e.2.due)
        have hlt : (settle { d with now := max e.2.due d.now }).running.length <
            d.running.length := by
          refine Nat.lt_of_le_of_ne hs.length_le fun heq => ?_
          exact Nat.not_lt_of_le (Nat.le_max_left _ _) (hd e (hs.eq_of_length heq ▸ he))
        obtain ⟨hm'', ht''⟩ := ih ht' (by split <;> omega)
        exact ⟨((hm e.2.due).trans hm').trans hm'', ht''⟩
      cases hq : d.nextDue? with
      | none =>
        dsimp only
        rw [if_neg (Nat.lt_irrefl due)]
        exact ⟨(hm due).trans late.1, late.2⟩
      | some t =>
        obtain ⟨e, he, rfl⟩ := exists_of_nextDue? hq
        dsimp only
        by_cases hn : e.2.due < due
        · rw [Nat.min_eq_left (Nat.le_of_lt hn), if_pos hn]
          exact soon e he
        · rw [Nat.min_eq_right (Nat.le_of_not_lt hn), if_neg (Nat.lt_irrefl due)]
          exact ⟨(hm due).trans late.1, late.2⟩

/-! ### Steps -/

section Names

variable {α : Type} {xs : List (String × α)} {name : String} {v : α}

theorem nodup_without (h : (xs.map (·.1)).Nodup) : ((Entries.without name xs).map (·.1)).Nodup :=
  h.sublist (List.filter_sublist.map _)

/-- What is put under a name takes the place of what was there. -/
theorem nodup_put (h : (xs.map (·.1)).Nodup) :
    (((name, v) :: Entries.without name xs).map (·.1)).Nodup := by
  refine List.nodup_cons.2 ⟨fun hm => ?_, nodup_without h⟩
  obtain ⟨e, he, hx⟩ := List.mem_map.1 hm
  have hne : e.1 ≠ name := by simpa using (List.mem_filter.1 he).2
  exact hne hx

theorem perm_named (h : (xs.map (·.1)).Nodup) (hl : xs.lookup name = some v) :
    (xs.map (·.2)).Perm (v :: (Entries.without name xs).map (·.2)) :=
  (Entries.perm_of_lookup h hl).map (·.2)

theorem without_eq (hl : xs.lookup name = none) : Entries.without name xs = xs :=
  Entries.filter_of_lookup_eq_none hl

end Names

theorem remove_eq {c : Correlator Unit} {id : String} (hl : c.slots.lookup id = none) :
    c.remove id = c := by
  unfold remove
  rw [without_eq hl]

variable {id name : String} {millis : Nat} {sub : Bool} {reply : Reply}

/-- What a step comes to: a series of moves of which it tells, and names that stay apart. -/
def Does (d : Desk) (s : Step) : Prop :=
  Moves (d.parties []) (d.told (.act s)) ((d.act s).2.parties []) ∧ Tidy (d.act s).2

theorem does_register (h : Tidy d) : d.Does (.register id name sub) := by
  unfold Does told act
  dsimp only
  cases hr : d.correlator.register id (if sub then some () else none) with
  | error e => exact ⟨.refl _, h⟩
  | ok p =>
    obtain ⟨w, c⟩ := p
    have hm := Moves.single (Move.register (s := d.parties []) hr)
    cases hl : d.waiters.lookup name with
    | none =>
      refine ⟨hm.reorder rfl ?_ (.refl _) (.refl _) (Nat.le_refl _), nodup_put h.waiters, h.slots,
        h.waits, h.started⟩
      dsimp only [parties]
      rw [without_eq hl]
      exact .refl _
    | some old =>
      have hp : (w :: (d.waiters.map (·.2) ++ d.running.map (·.2.waiter))).Perm
          (old :: w :: ((Entries.without name d.waiters).map (·.2) ++
            d.running.map (·.2.waiter))) :=
        (((perm_named h.waiters hl).append_right _).cons w).trans (.swap _ _ _)
      exact ⟨hm.tail (.drop hp), nodup_put h.waiters, h.slots, h.waits, h.started⟩

theorem does_deliver (h : Tidy d) : d.Does (.deliver id reply) := by
  refine ⟨?_, h.waiters, h.slots, h.waits, h.started⟩
  have ha : d.act (.deliver id reply) = (.flag (d.correlator.deliver id reply).1,
      { d with correlator := (d.correlator.deliver id reply).2 }) := rfl
  unfold told
  dsimp only
  rw [ha]
  unfold Correlator.deliver take
  dsimp only [Outcome.isYes]
  cases hl : d.correlator.slots.lookup id with
  | none =>
    dsimp only
    rw [remove_eq hl]
    exact .refl _
  | some slot =>
    have hm := Moves.single (.take (s := d.parties []) hl)
    exact hm.tail (.give reply (.refl _))

theorem does_take (h : Tidy d) : d.Does (.take id name) := by
  unfold Does told act take contains
  dsimp only
  cases hl : d.correlator.slots.lookup id with
  | none =>
    dsimp only
    rw [remove_eq hl]
    exact ⟨.refl _, h⟩
  | some slot =>
    have hm := Moves.single (.take (s := d.parties []) hl)
    refine ⟨?_, h.waiters, nodup_put h.slots, h.waits, h.started⟩
    cases ho : d.slots.lookup name with
    | none =>
      refine hm.reorder rfl (.refl _) ?_ (.refl _) (Nat.le_refl _)
      dsimp only [parties]
      rw [without_eq ho]
      exact .refl _
    | some old =>
      exact hm.tail (.destroy (((perm_named h.slots ho).cons slot).trans (.swap _ _ _)))

theorem does_fulfill (h : Tidy d) : d.Does (.fulfill name reply) := by
  unfold Does told act
  dsimp only
  cases hl : d.slots.lookup name with
  | none => exact ⟨.refl _, h⟩
  | some slot =>
    exact ⟨.single (.give (s := d.parties []) reply (perm_named h.slots hl)), h.waiters,
      nodup_without h.slots, h.waits, h.started⟩

theorem does_dropSlot (h : Tidy d) : d.Does (.dropSlot name) := by
  unfold Does told act
  dsimp only
  cases hl : d.slots.lookup name with
  | none => exact ⟨.refl _, h⟩
  | some slot =>
    exact ⟨.single (.destroy (s := d.parties []) (perm_named h.slots hl)), h.waiters,
      nodup_without h.slots, h.waits, h.started⟩

theorem does_dropPending (h : Tidy d) : d.Does (.dropPending name) := by
  unfold Does told act
  dsimp only
  cases hl : d.waiters.lookup name with
  | none => exact ⟨.refl _, h⟩
  | some w =>
    exact ⟨.single (.drop (s := d.parties []) ((perm_named h.waiters hl).append_right _)),
      nodup_without h.waiters, h.slots, h.waits, h.started⟩

theorem does_wait (h : Tidy d) : d.Does (.wait name millis) := by
  unfold Does told act
  dsimp only
  cases hl : d.waiters.lookup name with
  | none => exact ⟨.refl _, h⟩
  | some w =>
    -- the request passes into the hands of the wait
    have ht : Tidy { d with waiters := Entries.without name d.waiters } :=
      ⟨nodup_without h.waiters, h.slots, h.waits, h.started⟩
    have hm : Moves (d.parties []) []
        (parties { d with waiters := Entries.without name d.waiters } [w]) :=
      .single (.aside rfl ((perm_named h.waiters hl).append_right _).symm (.refl _) (.refl _)
        (Nat.le_refl _))
    have hlen : d.running.length ≤ d.waits.length := List.length_filter_le _ _
    obtain ⟨hm', ht'⟩ := moves_waitHere ht w (Span.ofMillis millis) (d.now + millis)
      (2 * d.waits.length + 3) (by
        change d.running.length + _ < _
        split <;> omega)
    exact ⟨hm.trans hm', ht'⟩

theorem does_startWait (h : Tidy d) : d.Does (.startWait name millis) := by
  unfold Does told act
  dsimp only
  cases hl : d.waiters.lookup name with
  | none => exact ⟨.refl _, h⟩
  | some w =>
    refine ⟨.single (.aside rfl ?_ (.refl _) ?_ (Nat.le_refl _)), nodup_without h.waiters, h.slots,
      ?_, fun e he => ?_⟩
    · dsimp only [parties, running]
      rw [List.filter_append, List.map_append, List.nil_append, ← List.append_assoc]
      refine (List.perm_append_singleton _ _).trans ?_
      exact ((perm_named h.waiters hl).append_right _).symm
    · dsimp only [parties, endings]
      rw [List.filterMap_append]
      exact .of_eq (List.append_nil _)
    · rw [List.map_append]
      refine List.nodup_append.2 ⟨h.waits, by simp, fun k hk m hm => ?_⟩
      obtain ⟨e, he, rfl⟩ := List.mem_map.1 hk
      rw [List.mem_singleton.1 hm]
      exact Nat.ne_of_lt (h.started e he)
    · rcases List.mem_append.1 he with he | he
      · exact Nat.lt_succ_of_lt (h.started e he)
      · rw [List.mem_singleton.1 he]
        exact Nat.lt_succ_self _

theorem parties_withoutWait (h : Tidy d) {v : Wait} (hl : d.waits.lookup n = some v)
    (names : List (String × Nat)) :
    Tidy { d with waits := d.waits.filter fun e => e.1 != n, waitNames := names } ∧
      (v.result = none → (d.parties []).pending.Perm (v.waiter ::
        (parties { d with waits := d.waits.filter fun e => e.1 != n, waitNames := names }
          []).pending) ∧
        (parties { d with waits := d.waits.filter fun e => e.1 != n, waitNames := names }
          []).endings.Perm d.endings) ∧
      ∀ r, v.result = some r → d.endings.Perm (⟨v.waiter.ticket, r, v.due⟩ ::
        (parties { d with waits := d.waits.filter fun e => e.1 != n, waitNames := names }
          []).endings) ∧
        (parties { d with waits := d.waits.filter fun e => e.1 != n, waitNames := names }
          []).pending.Perm (d.parties []).pending := by
  have hp := Entries.perm_of_lookup h.waits hl
  have hr := (hp.filter fun e => e.2.result.isNone).map (·.2.waiter)
  have he := hp.filterMap fun e => e.2.result.map fun r =>
    (⟨e.2.waiter.ticket, r, e.2.due⟩ : Ending)
  refine ⟨⟨h.waiters, h.slots, h.waits.sublist (List.filter_sublist.map _), fun e he =>
    h.started e (List.mem_filter.1 he).1⟩, fun hv => ?_, fun r hv => ?_⟩
  · simp only [List.filter_cons, List.filterMap_cons, hv, Option.isNone_none, if_true,
      List.map_cons, Option.map_none] at hr he
    exact ⟨(hr.append_left _).trans List.perm_middle, he.symm⟩
  · simp only [List.filter_cons, List.filterMap_cons, hv, Option.isNone_some, Bool.false_eq_true,
      if_false, Option.map_some] at hr he
    exact ⟨he, (hr.append_left _).symm⟩

theorem does_cancelWait (h : Tidy d) : d.Does (.cancelWait name) := by
  unfold Does told waitNamed? act
  dsimp only
  cases hn : d.waitNames.lookup name with
  | none => exact ⟨.refl _, h⟩
  | some n =>
    dsimp only [Option.bind_some]
    cases hl : d.waits.lookup n with
    | none =>
      dsimp only
      rw [Entries.filter_of_lookup_eq_none hl]
      exact ⟨.refl _, h.waiters, h.slots, h.waits, h.started⟩
    | some v =>
      obtain ⟨ht, hpend, hend⟩ := parties_withoutWait h hl (Entries.without name d.waitNames)
      cases hv : v.result with
      | none =>
        obtain ⟨hp, he⟩ := hpend hv
        refine ⟨?_, ?_⟩
        · simp only [hv]
          exact (Moves.single (.drop hp)).reorder rfl (.refl _) (.refl _) he (Nat.le_refl _)
        · simp only [hv]
          exact ⟨ht.waiters, ht.slots, ht.waits, ht.started⟩
      | some r =>
        obtain ⟨he, hp⟩ := hend r hv
        refine ⟨?_, ?_⟩
        · simp only [hv]
          exact (Moves.single (.forget (s := d.parties []) he)).reorder rfl hp (.refl _) (.refl _)
            (Nat.le_refl _)
        · simp only [hv]
          exact ht

theorem does_poll (h : Tidy d) : d.Does (.poll name) := by
  unfold Does told waitNamed? act
  dsimp only
  cases hn : d.waitNames.lookup name with
  | none => exact ⟨.refl _, h⟩
  | some n =>
    dsimp only [Option.bind_some]
    cases hl : d.waits.lookup n with
    | none => exact ⟨.refl _, h⟩
    | some v =>
      obtain ⟨ht, -, hend⟩ := parties_withoutWait h hl (Entries.without name d.waitNames)
      dsimp only [Option.map_some]
      cases hv : v.result with
      | none => exact ⟨.refl _, h⟩
      | some r =>
        obtain ⟨he, hp⟩ := hend r hv
        exact ⟨(Moves.single (.report (s := d.parties []) he)).reorder rfl hp (.refl _) (.refl _)
          (Nat.le_refl _), ht⟩

/-- Slots that have been taken are destroyed one by one. -/
theorem moves_dropSlots {s : Parties Unit} {entries : List (String × Slot Unit)}
    {rest : List (Slot Unit)} (hh : s.hands = entries.map (·.2) ++ rest) :
    Moves s (entries.map fun e => (e.2.ticket, .destroyed))
      { s with
        correlator := entries.foldl (fun c e => c.dropSlot e.2) s.correlator, hands := rest } := by
  induction entries generalizing s with
  | nil =>
    obtain ⟨c, pending, hands, ends, now⟩ := s
    obtain rfl : hands = rest := hh
    exact .refl _
  | cons e entries ih =>
    have hp : s.hands.Perm (e.2 :: (entries.map (·.2) ++ rest)) := .of_eq hh
    have hm : Move s [(e.2.ticket, .destroyed)] _ := .destroy hp
    exact (Moves.single hm).trans (ih rfl)

theorem does_failAll (h : Tidy d) : d.Does .failAll := by
  refine ⟨?_, h.waiters, h.slots, h.waits, h.started⟩
  exact (Moves.single (.close (d.parties []))).trans (moves_dropSlots rfl)

/-- **Whatever is done at a desk is a series of moves.** -/
theorem does_act (h : Tidy d) (s : Step) : d.Does s := by
  cases s with
  | register id name sub => exact does_register h
  | deliver id reply => exact does_deliver h
  | take id name => exact does_take h
  | fulfill name reply => exact does_fulfill h
  | dropSlot name => exact does_dropSlot h
  | dropPending name => exact does_dropPending h
  | wait name millis => exact does_wait h
  | startWait name millis => exact does_startWait h
  | cancelWait name => exact does_cancelWait h
  | poll name => exact does_poll h
  | failAll => exact does_failAll h
  | advance millis =>
    exact ⟨.single (.aside rfl (.refl _) (.refl _) (.refl _) (Nat.le_add_right _ _)), h.waiters,
      h.slots, h.waits, h.started⟩
  | callSubscription name =>
    exact ⟨.single (.aside rfl (.refl _) (.refl _) (.refl _) (Nat.le_refl _)), h.waiters, h.slots,
      h.waits, h.started⟩
  | contains id => exact ⟨.refl _, h⟩

end Desk

end DocWire.Correlator
