import Mathlib.Data.Finmap
import DocWire.Routes.Script

/-! # Callbacks that act on the routes act on a finite map

What a program of steps is to do is said on an ordinary finite map from ids to callbacks. A step that
runs no callback is one operation of the map (`Map.act?`). A dispatch runs the callback that its id
leads to when it begins, once, from then on through all that the callback's steps do, and after it the
callback that the dispatch stands in goes on (`Map.Performs`). A board does just that, whatever
callbacks do to the routes while they run (`Board.call_sound`, `Board.call_complete`). -/

namespace DocWire.Routes

/-- An ordinary finite map from ids to callbacks. -/
abbrev Map : Type := Finmap fun _ : String => Callback

namespace Map

/-- What a step does to a finite map, and what it gives back, unless it runs a callback or ends
one. -/
def act? (m : Map) : Step → Option (Outcome × Map)
  | .subscribe id tag steps =>
    some (if id ∈ m then (.flag false, m) else (.flag true, m.insert id ⟨tag, steps⟩))
  | .unsubscribe id => some (.flag (id ∈ m), m.erase id)
  | .dispatch _ (.error e) => some (.failed e, m)
  | .dispatch id (.ok _) => if id ∈ m then none else some (.flag false, m)
  | .clear => some (.count m.keys.card, ∅)
  | .contains id => some (.flag (id ∈ m), m)
  | .abort => none

/-- What the steps of a callback log, and what they make of a map. A step that dispatches runs
another callback within this one, and then this one goes on; an abort ends it. -/
inductive Performs : String → Map → List Step → List Entry → Map → Prop
  | done {tag : String} {m : Map} : Performs tag m [] [] m
  | aborts {tag : String} {m : Map} {rest : List Step} : Performs tag m (.abort :: rest) [] m
  | acts {tag : String} {m m₁ m' : Map} {s : Step} {rest : List Step} {o : Outcome}
      {l : List Entry} (h : m.act? s = some (o, m₁)) (hr : Performs tag m₁ rest l m') :
      Performs tag m (s :: rest) (.did tag s o :: l) m'
  | calls {tag id : String} {m m₁ m' : Map} {callback : Callback} {event : ChangeEvent}
      {rest : List Step} {l₁ l₂ : List Entry} (h : m.lookup id = some callback)
      (hc : Performs callback.tag m callback.steps l₁ m₁) (hr : Performs tag m₁ rest l₂ m') :
      Performs tag m (.dispatch id (.ok event) :: rest)
        (.called callback.tag event :: l₁ ++
          .did tag (.dispatch id (.ok event)) (.flag true) :: l₂) m'

/-- What a step gives back, what is logged meanwhile, and what it makes of a map. An abort finds no
callback to end. -/
inductive Takes : Map → Step → Outcome → List Entry → Map → Prop
  | acts {m m' : Map} {s : Step} {o : Outcome} (h : m.act? s = some (o, m')) : Takes m s o [] m'
  | calls {m m' : Map} {id : String} {callback : Callback} {event : ChangeEvent} {l : List Entry}
      (h : m.lookup id = some callback) (hc : Performs callback.tag m callback.steps l m') :
      Takes m (.dispatch id (.ok event)) (.flag true) (.called callback.tag event :: l) m'
  | idles {m : Map} : Takes m .abort .nothing [] m

/-- What the steps of a program give back, one after the other. -/
inductive Executes : Map → List Step → List Outcome → List Entry → Map → Prop
  | done {m : Map} : Executes m [] [] [] m
  | step {m m₁ m' : Map} {s : Step} {rest : List Step} {o : Outcome} {os : List Outcome}
      {l₁ l₂ : List Entry} (h : Takes m s o l₁ m₁) (hr : Executes m₁ rest os l₂ m') :
      Executes m (s :: rest) (o :: os) (l₁ ++ l₂) m'

end Map

theorem opened_subscribe {κ : Type} (r : Routes κ) (id : String) (target : κ) :
    (r.subscribe id target).1 = !r.contains id := by
  unfold subscribe
  split <;> simp [*]

/-- The routes lead where a finite map leads. -/
structure Shows (r : Routes Callback) (m : Map) : Prop where
  keys : r.ids.Nodup
  lookup : ∀ id, m.lookup id = r.get? id

variable {r : Routes Callback} {m m' : Map} {id tag : String} {s : Step} {o : Outcome}

namespace Shows

theorem mem_iff (h : r.Shows m) : id ∈ m ↔ r.contains id = true := by
  rw [← Finmap.lookup_isSome, h.lookup]
  rfl

theorem decide_mem (h : r.Shows m) (id : String) : decide (id ∈ m) = r.contains id := by
  rw [Bool.eq_iff_iff, decide_eq_true_iff, h.mem_iff]

theorem mem_ids (r : Routes Callback) : id ∈ r.ids ↔ r.contains id = true := by
  unfold ids contains get?
  rw [Option.isSome_iff_exists]
  constructor
  · intro h
    obtain ⟨e, he, rfl⟩ := List.mem_map.1 h
    cases hl : r.entries.lookup e.1 with
    | some v => exact ⟨v, rfl⟩
    | none =>
      have hx := List.lookup_eq_none_iff.1 hl e he
      simp at hx
  · rintro ⟨v, hv⟩
    exact List.mem_map.2 ⟨_, Entries.mem_of_lookup hv, rfl⟩

theorem card (h : r.Shows m) : m.keys.card = r.size := by
  have hk : m.keys = r.ids.toFinset := by
    ext id
    rw [Finmap.mem_keys, h.mem_iff, List.mem_toFinset, mem_ids]
  rw [hk, List.toFinset_card_of_nodup h.keys]
  exact List.length_map _

theorem empty : (Routes.empty : Routes Callback).Shows ∅ := ⟨.nil, fun _ => rfl⟩

theorem subscribe (h : r.Shows m) (id : String) (callback : Callback) :
    (r.subscribe id callback).2.Shows (if id ∈ m then m else m.insert id callback) := by
  by_cases hm : id ∈ m
  · have hc := h.mem_iff.1 hm
    unfold Routes.subscribe
    rw [if_pos hm, if_pos hc]
    exact h
  · rw [if_neg hm]
    refine ⟨?_, fun other => ?_⟩
    · have hc : ¬ r.contains id = true := mt h.mem_iff.2 hm
      unfold Routes.subscribe
      rw [if_neg hc]
      have hn : id ∉ r.ids := mt (mem_ids r).1 hc
      have hi : (⟨r.entries ++ [(id, callback)]⟩ : Routes Callback).ids = r.ids ++ [id] :=
        List.map_append
      rw [hi]
      refine List.nodup_append.2 ⟨h.keys, List.nodup_singleton _, fun a ha b hb => ?_⟩
      rintro rfl
      exact hn (List.mem_singleton.1 hb ▸ ha)
    · rw [get?_subscribe]
      by_cases ho : other = id
      · subst ho
        rw [if_pos rfl, Finmap.lookup_insert, ← h.lookup, Finmap.lookup_eq_none.2 hm]
        rfl
      · rw [if_neg ho, Finmap.lookup_insert_of_ne _ ho, h.lookup]

theorem unsubscribe (h : r.Shows m) (id : String) : (r.unsubscribe id).2.Shows (m.erase id) := by
  refine ⟨h.keys.sublist (List.filter_sublist.map _), fun other => ?_⟩
  rw [get?_unsubscribe]
  by_cases ho : other = id
  · subst ho
    rw [if_pos rfl, Finmap.lookup_erase]
  · rw [if_neg ho, Finmap.lookup_erase_ne ho, h.lookup]

end Shows

namespace Board

variable {b b' : Board} {steps rest : List Step} {l : List Entry}
  {via via' : Callback → ChangeEvent → Board → Option Board}

/-! ### One step -/

theorem act_subscribe (via : Callback → ChangeEvent → Board → Option Board) (b : Board)
    (id tag : String) (steps : List Step) :
    b.act via (.subscribe id tag steps) = some (.flag (!b.routes.contains id),
      { b with routes := (b.routes.subscribe id ⟨tag, steps⟩).2 }) := by
  rw [← opened_subscribe b.routes id ⟨tag, steps⟩]
  rfl

/-- A step that runs no callback does to a board what it does to the map. -/
theorem act_eq (hm : b.routes.Shows m) (h : m.act? s = some (o, m'))
    (via : Callback → ChangeEvent → Board → Option Board) :
    ∃ r, b.act via s = some (o, { b with routes := r }) ∧ r.Shows m' := by
  cases s with
  | subscribe id tag steps =>
    have hs := hm.subscribe id ⟨tag, steps⟩
    refine ⟨(b.routes.subscribe id ⟨tag, steps⟩).2, ?_⟩
    rw [act_subscribe, ← hm.decide_mem]
    by_cases hi : id ∈ m
    · rw [Map.act?, if_pos hi] at h
      rw [if_pos hi] at hs
      cases h
      exact ⟨by rw [decide_eq_true hi]; rfl, hs⟩
    · rw [Map.act?, if_neg hi] at h
      rw [if_neg hi] at hs
      cases h
      exact ⟨by rw [decide_eq_false hi]; rfl, hs⟩
  | unsubscribe id =>
    cases h
    rw [hm.decide_mem]
    exact ⟨_, rfl, hm.unsubscribe id⟩
  | dispatch id event =>
    cases event with
    | error e =>
      cases h
      exact ⟨b.routes, rfl, hm⟩
    | ok event =>
      obtain ⟨hi, hx⟩ := Option.ite_none_left_eq_some.1 h
      cases hx
      have hg : b.routes.get? id = none := (hm.lookup id).symm.trans (Finmap.lookup_eq_none.2 hi)
      refine ⟨b.routes, ?_, hm⟩
      unfold act
      dsimp only
      rw [hg]
  | clear =>
    cases h
    rw [hm.card]
    exact ⟨_, rfl, .empty⟩
  | contains id =>
    cases h
    rw [hm.decide_mem]
    exact ⟨b.routes, rfl, hm⟩
  | abort => cases h

/-- The steps that run a callback, or end one. -/
theorem act?_eq_none (h : m.act? s = none) :
    s = .abort ∨ ∃ id event callback, s = .dispatch id (.ok event) ∧
      m.lookup id = some callback := by
  cases s with
  | abort => exact .inl rfl
  | dispatch id event =>
    cases event with
    | error e => cases h
    | ok event =>
      have hi : id ∈ m := by
        by_contra hi
        rw [Map.act?, if_neg hi] at h
        cases h
      obtain ⟨callback, hl⟩ := Finmap.mem_iff.1 hi
      exact .inr ⟨id, event, callback, rfl, hl⟩
  | _ => cases h

/-! ### What boards do, maps do -/

/-- Callbacks that are run do to a finite map what their steps are to do. -/
def Sound (via : Callback → ChangeEvent → Board → Option Board) : Prop :=
  ∀ {callback event b b' m}, via callback event b = some b' → b.routes.Shows m →
    ∃ l m', b'.log = b.log ++ .called callback.tag event :: l ∧
      Map.Performs callback.tag m callback.steps l m' ∧ b'.routes.Shows m'

theorem act_sound (hc : Sound via) (h : b.act via s = some (o, b')) (hm : b.routes.Shows m) :
    ∃ l m', b'.log = b.log ++ l ∧ Map.Takes m s o l m' ∧ b'.routes.Shows m' := by
  cases ha : m.act? s with
  | some r =>
    obtain ⟨o', m'⟩ := r
    obtain ⟨r, hb, hr⟩ := act_eq hm ha via
    cases h.symm.trans hb
    exact ⟨[], m', (List.append_nil _).symm, .acts ha, hr⟩
  | none =>
    rcases act?_eq_none ha with rfl | ⟨id, event, callback, rfl, hl⟩
    · cases h
      exact ⟨[], m, (List.append_nil _).symm, .idles, hm⟩
    · have hg : b.routes.get? id = some callback := (hm.lookup id).symm.trans hl
      unfold act at h
      dsimp only at h
      rw [hg] at h
      obtain ⟨b₁, hb, hx⟩ := Option.map_eq_some_iff.1 h
      cases hx
      obtain ⟨l, m', hlog, hp, hr⟩ := hc hb hm
      exact ⟨_, m', hlog, .calls hl hp, hr⟩

theorem performs_step {m₁ : Map} {l' : List Entry} (h : Map.Takes m s o l m₁) (hs : s ≠ .abort)
    (hr : Map.Performs tag m₁ rest l' m') :
    Map.Performs tag m (s :: rest) (l ++ .did tag s o :: l') m' := by
  cases h with
  | acts h => exact .acts h hr
  | calls h hc => exact .calls h hc hr
  | idles => exact absurd rfl hs

theorem runSteps_cons (via : Callback → ChangeEvent → Board → Option Board) (tag : String)
    (rest : List Step) (b : Board) (hs : s ≠ .abort) :
    runSteps via tag (s :: rest) b =
      (b.act via s).bind fun r => runSteps via tag rest (r.2.record (.did tag s r.1)) := by
  rw [runSteps]
  · cases b.act via s <;> rfl
  · exact hs

theorem runSteps_sound (hc : Sound via) (h : runSteps via tag steps b = some b')
    (hm : b.routes.Shows m) :
    ∃ l m', b'.log = b.log ++ l ∧ Map.Performs tag m steps l m' ∧ b'.routes.Shows m' := by
  induction steps generalizing b m with
  | nil =>
    cases h
    exact ⟨[], m, (List.append_nil _).symm, .done, hm⟩
  | cons s rest ih =>
    by_cases hs : s = .abort
    · subst hs
      cases h
      exact ⟨[], m, (List.append_nil _).symm, .aborts, hm⟩
    · rw [runSteps_cons via tag rest b hs] at h
      obtain ⟨⟨o, b₁⟩, hb, hx⟩ := Option.bind_eq_some_iff.1 h
      obtain ⟨l₁, m₁, hl₁, ht, hm₁⟩ := act_sound hc hb hm
      obtain ⟨l₂, m₂, hl₂, hp, hm₂⟩ := ih hx hm₁
      refine ⟨l₁ ++ .did tag s o :: l₂, m₂, ?_, performs_step ht hs hp, hm₂⟩
      rw [hl₂, record, hl₁, List.append_assoc, List.append_assoc, List.singleton_append]

/-- **What a callback does on a board** is what its steps are to do on the map. -/
theorem call_sound (depth : Nat) : Sound (call depth) := by
  induction depth with
  | zero => exact fun h => nomatch h
  | succ depth ih =>
    intro callback event b b' m h hm
    obtain ⟨l, m', hl, hp, hr⟩ := runSteps_sound ih h hm
    refine ⟨l, m', ?_, hp, hr⟩
    rw [hl, record, List.append_assoc, List.singleton_append]

/-! ### The depth -/

/-- One way of running callbacks comes to an end wherever another does, and in the same way. -/
def Extends (via via' : Callback → ChangeEvent → Board → Option Board) : Prop :=
  ∀ {callback event b b'}, via callback event b = some b' → via' callback event b = some b'

theorem act_extends (hc : Extends via via') (h : b.act via s = some (o, b')) :
    b.act via' s = some (o, b') := by
  unfold act at h ⊢
  split at h
  case h_4 =>
    split at h
    · exact h
    · obtain ⟨b₁, hb, hx⟩ := Option.map_eq_some_iff.1 h
      exact Option.map_eq_some_iff.2 ⟨b₁, hc hb, hx⟩
  all_goals exact h

theorem runSteps_extends (hc : Extends via via') (h : runSteps via tag steps b = some b') :
    runSteps via' tag steps b = some b' := by
  induction steps generalizing b with
  | nil => exact h
  | cons s rest ih =>
    by_cases hs : s = .abort
    · subst hs
      exact h
    · rw [runSteps_cons via tag rest b hs] at h
      rw [runSteps_cons via' tag rest b hs]
      obtain ⟨⟨o, b₁⟩, hb, hx⟩ := Option.bind_eq_some_iff.1 h
      exact Option.bind_eq_some_iff.2 ⟨(o, b₁), act_extends hc hb, ih hx⟩

/-- Allowing for more depth changes nothing where there is a result. -/
theorem call_extends {depth depth' : Nat} (h : depth ≤ depth') :
    Extends (call depth) (call depth') := by
  induction depth generalizing depth' with
  | zero => exact fun hx => nomatch hx
  | succ depth ih =>
    obtain ⟨depth', rfl⟩ : ∃ k, depth' = k + 1 := ⟨depth' - 1, by omega⟩
    exact fun hx => runSteps_extends (ih (Nat.le_of_succ_le_succ h)) hx

/-! ### What maps do, boards do -/

theorem performs_complete (h : Map.Performs tag m steps l m') :
    ∃ depth, ∀ b : Board, b.routes.Shows m →
      ∃ b', runSteps (call depth) tag steps b = some b' ∧ b'.log = b.log ++ l ∧
        b'.routes.Shows m' := by
  induction h with
  | done => exact ⟨0, fun b hm => ⟨b, rfl, (List.append_nil _).symm, hm⟩⟩
  | aborts => exact ⟨0, fun b hm => ⟨b, rfl, (List.append_nil _).symm, hm⟩⟩
  | @acts tag m m₁ m' s rest o l h _ ih =>
    obtain ⟨depth, ih⟩ := ih
    refine ⟨depth, fun b hm => ?_⟩
    obtain ⟨r, hb, hr⟩ := act_eq hm h (call depth)
    obtain ⟨b', hx, hlog, hm'⟩ := ih ({ b with routes := r }.record (.did tag s o)) hr
    refine ⟨b', ?_, ?_, hm'⟩
    · rw [runSteps_cons _ tag rest b (by rintro rfl; cases h), hb]
      exact hx
    · rw [hlog, record, List.append_assoc, List.singleton_append]
  | @calls tag id m m₁ m' callback event rest l₁ l₂ h _ _ ihc ihr =>
    obtain ⟨depth, ihc⟩ := ihc
    obtain ⟨depth', ihr⟩ := ihr
    refine ⟨max (depth + 1) depth', fun b hm => ?_⟩
    have hg : b.routes.get? id = some callback := (hm.lookup id).symm.trans h
    obtain ⟨b₁, hb₁, hlog₁, hm₁⟩ := ihc (b.record (.called callback.tag event)) hm
    obtain ⟨b', hb', hlog', hm'⟩ :=
      ihr (b₁.record (.did tag (.dispatch id (.ok event)) (.flag true))) hm₁
    have hcall : call (max (depth + 1) depth') callback event b = some b₁ :=
      call_extends (Nat.le_max_left _ _) (show call (depth + 1) callback event b = some b₁ from hb₁)
    refine ⟨b', ?_, ?_, hm'⟩
    · rw [runSteps_cons (s := .dispatch id (.ok event)) _ tag rest b nofun]
      have hact : b.act (call (max (depth + 1) depth')) (.dispatch id (.ok event)) =
          some (.flag true, b₁) := by
        unfold act
        dsimp only
        rw [hg]
        dsimp only
        rw [hcall]
        rfl
      rw [hact]
      exact runSteps_extends (call_extends (Nat.le_max_right _ _)) hb'
    · rw [hlog', record, hlog₁, record]
      simp

theorem takes_complete (h : Map.Takes m s o l m') :
    ∃ depth, ∀ b : Board, b.routes.Shows m →
      ∃ b', b.stepWithin depth s = some (o, b') ∧ b'.log = b.log ++ l ∧ b'.routes.Shows m' := by
  cases h with
  | acts h =>
    refine ⟨0, fun b hm => ?_⟩
    obtain ⟨r, hb, hr⟩ := act_eq hm h (call 0)
    exact ⟨_, hb, (List.append_nil _).symm, hr⟩
  | idles => exact ⟨0, fun b hm => ⟨b, rfl, (List.append_nil _).symm, hm⟩⟩
  | @calls _ id callback event l h hc =>
    obtain ⟨depth, hx⟩ := performs_complete hc
    refine ⟨depth + 1, fun b hm => ?_⟩
    have hg : b.routes.get? id = some callback := (hm.lookup id).symm.trans h
    obtain ⟨b', hb', hlog, hm'⟩ := hx (b.record (.called callback.tag event)) hm
    refine ⟨b', ?_, ?_, hm'⟩
    · unfold stepWithin act
      dsimp only
      rw [hg]
      exact Option.map_eq_some_iff.2 ⟨b', hb', rfl⟩
    · rw [hlog, record, List.append_assoc, List.singleton_append]

/-! ### Programs -/

/-- Takes the steps of a program one after the other, if dispatches are nested at most `depth` deep in
each. -/
def runWithin (depth : Nat) : List Step → Board → Option (List Outcome × Board)
  | [], b => some ([], b)
  | s :: rest, b =>
    (b.stepWithin depth s).bind fun r =>
      (runWithin depth rest r.2).map fun q => (r.1 :: q.1, q.2)

variable {depth depth' : Nat} {program : List Step} {os os' : List Outcome}

theorem runWithin_sound (h : runWithin depth program b = some (os, b')) (hm : b.routes.Shows m) :
    ∃ l m', b'.log = b.log ++ l ∧ Map.Executes m program os l m' ∧ b'.routes.Shows m' := by
  induction program generalizing b m os with
  | nil =>
    cases h
    exact ⟨[], m, (List.append_nil _).symm, .done, hm⟩
  | cons s rest ih =>
    obtain ⟨⟨o, b₁⟩, hb, hx⟩ := Option.bind_eq_some_iff.1 h
    obtain ⟨⟨os, b₂⟩, hb', hx⟩ := Option.map_eq_some_iff.1 hx
    cases hx
    obtain ⟨l₁, m₁, hl₁, ht, hm₁⟩ := act_sound (call_sound depth) hb hm
    obtain ⟨l₂, m₂, hl₂, he, hm₂⟩ := ih hb' hm₁
    exact ⟨l₁ ++ l₂, m₂, by rw [hl₂, hl₁, List.append_assoc], .step ht he, hm₂⟩

theorem runWithin_extends (hd : depth ≤ depth')
    (h : runWithin depth program b = some (os, b')) :
    runWithin depth' program b = some (os, b') := by
  induction program generalizing b os with
  | nil => exact h
  | cons s rest ih =>
    obtain ⟨⟨o, b₁⟩, hb, hx⟩ := Option.bind_eq_some_iff.1 h
    obtain ⟨⟨os, b₂⟩, hb', hx⟩ := Option.map_eq_some_iff.1 hx
    cases hx
    exact Option.bind_eq_some_iff.2 ⟨(o, b₁), act_extends (call_extends hd) hb,
      Option.map_eq_some_iff.2 ⟨(os, b₂), ih hb', rfl⟩⟩

theorem executes_complete (h : Map.Executes m program os l m') :
    ∃ depth, ∀ b : Board, b.routes.Shows m →
      ∃ b', runWithin depth program b = some (os, b') ∧ b'.log = b.log ++ l ∧
        b'.routes.Shows m' := by
  induction h with
  | done => exact ⟨0, fun b hm => ⟨b, rfl, (List.append_nil _).symm, hm⟩⟩
  | @step m m₁ m' s rest o os l₁ l₂ h _ ih =>
    obtain ⟨depth, hx⟩ := takes_complete h
    obtain ⟨depth', hx'⟩ := ih
    refine ⟨max depth depth', fun b hm => ?_⟩
    obtain ⟨b₁, hb₁, hlog₁, hm₁⟩ := hx b hm
    obtain ⟨b', hb', hlog', hm'⟩ := hx' b₁ hm₁
    refine ⟨b', ?_, ?_, hm'⟩
    · refine Option.bind_eq_some_iff.2 ⟨(o, b₁),
        act_extends (call_extends (Nat.le_max_left _ _)) hb₁, ?_⟩
      exact Option.map_eq_some_iff.2
        ⟨(os, b'), runWithin_extends (Nat.le_max_right _ _) hb', rfl⟩
    · rw [hlog', hlog₁, List.append_assoc]

/-! ### What a callback can rely on -/

theorem runSteps_abort (via : Callback → ChangeEvent → Board → Option Board) (tag : String)
    (steps rest : List Step) (b : Board) :
    runSteps via tag (steps ++ .abort :: rest) b = runSteps via tag steps b := by
  induction steps generalizing b with
  | nil => rfl
  | cons s steps ih =>
    rw [List.cons_append]
    by_cases hs : s = .abort
    · subst hs
      rfl
    · rw [runSteps_cons via tag _ b hs, runSteps_cons via tag _ b hs]
      cases b.act via s with
      | none => rfl
      | some r => exact ih _

/-- Programs of steps, with callbacks that take steps themselves, work on the routes as on a finite
map. When a run comes to an end, what the steps have given back, what has been called and done, in
order, and where the routes lead is what the program comes to on the map; and whatever it comes to
there, runs come to, all to the same.

At any moment, an id is given a route only if it has none, and a dispatch runs the callback that its
id leads to just then, once, or gives back that there is none. A callback that is aborted has done
what comes before that, and has come to its end. -/
structure ActsAsMap (program : List Step) : Prop where
  sound : ∀ {depth os b}, runWithin depth program empty = some (os, b) →
    ∃ m, Map.Executes ∅ program os b.log m ∧ b.routes.Shows m
  complete : ∀ {os l m}, Map.Executes ∅ program os l m →
    ∃ depth b, runWithin depth program empty = some (os, b) ∧ b.log = l ∧ b.routes.Shows m
  unique : ∀ {depth depth' r r'}, runWithin depth program empty = some r →
    runWithin depth' program empty = some r' → r = r'
  subscribes : ∀ {depth o} {b b' : Board} {id tag steps},
    b.stepWithin depth (.subscribe id tag steps) = some (o, b') →
      o = .flag (!b.routes.contains id) ∧
        b'.routes.get? id = some ((b.routes.get? id).getD ⟨tag, steps⟩)
  dispatches : ∀ {depth o} {b b' : Board} {id event},
    b.stepWithin depth (.dispatch id (.ok event)) = some (o, b') →
      o = .flag (b.routes.contains id)
  runs : ∀ {depth o} {b b' : Board} {id event callback},
    b.stepWithin depth (.dispatch id (.ok event)) = some (o, b') →
      b.routes.get? id = some callback → call depth callback event b = some b'
  aborts : ∀ depth tag steps rest event b,
    call depth ⟨tag, steps ++ .abort :: rest⟩ event b = call depth ⟨tag, steps⟩ event b

/-- **Callbacks may act on the routes**, to any depth: the routes stay a plain map. -/
theorem actsAsMap (program : List Step) : ActsAsMap program where
  sound h := by
    obtain ⟨l, m, hl, he, hm⟩ := runWithin_sound h .empty
    rw [show l = _ from hl.symm] at he
    exact ⟨m, he, hm⟩
  complete h := by
    obtain ⟨depth, hx⟩ := executes_complete h
    obtain ⟨b, hb, hl, hm⟩ := hx empty .empty
    exact ⟨depth, b, hb, hl, hm⟩
  unique {depth depth' r r'} h h' := by
    have hx := runWithin_extends (Nat.le_max_left depth depth') h
    have hx' := runWithin_extends (Nat.le_max_right depth depth') h'
    exact Option.some.inj (hx.symm.trans hx')
  subscribes {depth o b b' id tag steps} h := by
    rw [stepWithin, act_subscribe] at h
    obtain ⟨rfl, rfl⟩ := Prod.mk.inj (Option.some.inj h)
    exact ⟨rfl, by rw [get?_subscribe, if_pos rfl]⟩
  dispatches {depth o b b' id event} h := by
    unfold stepWithin act at h
    dsimp only at h
    unfold Routes.contains
    cases hg : b.routes.get? id with
    | none =>
      rw [hg] at h
      cases h
      rfl
    | some callback =>
      rw [hg] at h
      obtain ⟨b₁, -, hx⟩ := Option.map_eq_some_iff.1 h
      cases hx
      rfl
  runs {depth o b b' id event callback} h hg := by
    unfold stepWithin act at h
    dsimp only at h
    rw [hg] at h
    obtain ⟨b₁, hb, hx⟩ := Option.map_eq_some_iff.1 h
    cases hx
    exact hb
  aborts depth tag steps rest event b := by
    cases depth with
    | zero => rfl
    | succ depth => exact runSteps_abort _ _ _ _ _

/-- A callback that closes its own route, finds it closed, and is aborted before it clears all. -/
example : (runWithin 2 [.subscribe "1" "a" [.unsubscribe "1", .contains "1", .abort, .clear],
    .subscribe "2" "b" [], .dispatch "1" (.ok (.delete .null))] empty).map
      (fun r => (r.2.log.length, r.2.routes.ids)) = some (3, ["2"]) := by
  rfl

end Board

end DocWire.Routes
