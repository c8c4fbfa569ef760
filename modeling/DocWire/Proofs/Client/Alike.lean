import DocWire.Proofs.Client.Alert
import DocWire.Proofs.Client.Laden
import DocWire.Proofs.Client.Onward

/-! # Clients that do the same

Two clients may differ in their mailboxes and in what has been written down, and yet do the same
from now on, whatever happens to them (`Alike`). So it is with a client and the one that it would be
if a registration that has come to nothing had not been made (`alike_laden`). Such clients also take
their turns in the same order, so they do the same as the program runs them (`Alike.performAll`). -/

namespace DocWire

open DocWire.Correlator (Waiter)

namespace Client

variable {m : Nat} {past : List Incident} {c c' d : Client}

/-! ### Runs -/

/-- One thing that happens to a client: something from outside, a turn of a task, or frames that the
reader takes up before the signal to stop. -/
inductive Happening where
  | act (a : Action)
  | turn (t : Task)
  | overlook (count : Nat)

/-- The client after something has happened to it. -/
def after (c : Client) : Happening → Client
  | .act a => c.act a
  | .turn t => c.turn t
  | .overlook count => c.overlook count

/-- The client after a series of things have happened to it. -/
def afterAll (c : Client) (hs : List Happening) : Client := hs.foldl after c

theorem goes_after (c : Client) (h : Happening) : c.Goes (c.after h) := by
  cases h with
  | act a => exact .follows (.act c a)
  | turn t => exact .follows (.turn c t)
  | overlook count => exact .overlook c count

theorem onward_afterAll (c : Client) (hs : List Happening) : c.Onward (c.afterAll hs) := by
  induction hs generalizing c with
  | nil => exact .refl c
  | cons h hs ih => exact .head (goes_after c h) (ih _)

/-- **Every run is such a series.** -/
theorem onward_iff : c.Onward c' ↔ ∃ hs, c' = c.afterAll hs := by
  refine ⟨fun h => ?_, fun ⟨hs, he⟩ => he ▸ onward_afterAll c hs⟩
  induction h with
  | refl => exact ⟨[], rfl⟩
  | @tail d _ _ hg ih =>
    obtain ⟨hs, rfl⟩ := ih
    have hstep : ∀ h, (c.afterAll hs).after h = c.afterAll (hs ++ [h]) := fun h => by
      unfold afterAll
      rw [List.foldl_append]
      rfl
    cases hg with
    | follows hf =>
      cases hf with
      | act a => exact ⟨_, hstep (.act a)⟩
      | turn t => exact ⟨_, hstep (.turn t)⟩
    | overlook count => exact ⟨_, hstep (.overlook count)⟩

/-! ### The number of mailboxes -/

theorem Sends.length_mailboxes_le {n : Nat} {waiter : Option Waiter} (hs : c.Sends n waiter c') :
    c.correlator.mailboxes.length ≤ c'.correlator.mailboxes.length := by
  cases hs with
  | later hs => exact Nat.le_refl _
  | atOnce he =>
    cases he with
    | farewell => exact Nat.le_refl _
    | request _ _ _ hr => exact Correlator.length_register hr ▸ Nat.le_succ _

theorem length_mailboxes_forgetAny (c : Client) (waiter : Option Waiter) :
    (c.forgetAny waiter).correlator.mailboxes.length = c.correlator.mailboxes.length := by
  cases waiter with
  | none => rfl
  | some w => exact Correlator.length_leave _ _

theorem Move.length_mailboxes_le (hm : c.Move c') :
    c.correlator.mailboxes.length ≤ c'.correlator.mailboxes.length := by
  have same : c'.correlator = c.correlator →
      c.correlator.mailboxes.length ≤ c'.correlator.mailboxes.length := fun h =>
    Nat.le_of_eq (congrArg (·.mailboxes.length) h).symm
  cases hm.advances with
  | aside ha => exact same ha.correlator
  | begin he hs => exact (Sends.atOnce he).length_mailboxes_le
  | sent hs => exact Nat.le_refl _
  | @fail c₁ _ n waiter e hs he hf =>
    have hl : c.correlator.mailboxes.length ≤
        ((c₁.record (.unsent n e)).yield.forgetAny waiter).correlator.mailboxes.length :=
      Nat.le_trans hs.length_mailboxes_le (Nat.le_of_eq
        (length_mailboxes_forgetAny (c₁.record (.unsent n e)).yield waiter).symm)
    cases hf with
    | ends _ => exact hl
    | closes _ => exact Nat.le_trans hl (Nat.le_of_eq (Correlator.length_failAll _).symm)
  | @conclude n due w r hs hr =>
    have hk : (c.conclude n w r).correlator = c.correlator.leave w := by
      unfold Client.conclude
      cases r with
      | error e => rfl
      | ok reply =>
        dsimp only
        split <;> rfl
    exact hk ▸ Nat.le_of_eq (Correlator.length_leave _ _).symm
  | drop hn hp ha =>
    rw [ha.correlator]
    exact Nat.le_of_eq (length_mailboxes_forgetAny _ _).symm
  | @breakOff d ha =>
    have hd : c.correlator.mailboxes.length ≤ d.correlator.mailboxes.length :=
      Nat.le_of_eq (congrArg (·.mailboxes.length) ha.correlator).symm
    exact Nat.le_trans hd (Nat.le_of_eq (Correlator.length_failAll _).symm)
  | @route c' f hq =>
    rw [← correlator_eq hq]
    unfold routed
    split
    · split
      · exact Nat.le_of_eq (Correlator.length_fulfill (c.correlator.remove _) _ _).symm
      · exact Nat.le_refl _
    · unfold dispatch
      split <;> exact Nat.le_refl _
    · exact Nat.le_refl _

theorem Onward.le_length_mailboxes (h : c.Onward c') (hm : m ≤ c.correlator.mailboxes.length) :
    m ≤ c'.correlator.mailboxes.length :=
  h.induct (P := fun d => m ≤ d.correlator.mailboxes.length)
    (fun hm hx => Nat.le_trans hx hm.length_mailboxes_le) (fun _ hx => hx) hm

theorem overlook_laden (c : Client) (count : Nat) :
    (c.laden m past).overlook count = (c.overlook count).laden m past := by
  unfold overlook
  rw [show (c.laden m past).reader = c.reader from rfl]
  cases c.reader with
  | reading b => exact readFrames_laden count c b
  | _ => rfl

theorem after_laden (c : Client) (hm : m ≤ c.correlator.mailboxes.length) (h : Happening) :
    (c.laden m past).after h = (c.after h).laden m past := by
  cases h with
  | act a => exact act_laden c a
  | turn t => exact turn_laden c hm t
  | overlook count => exact overlook_laden c count

/-- **What is over has no part in what comes**, over any series of happenings. -/
theorem afterAll_laden (c : Client) (hm : m ≤ c.correlator.mailboxes.length)
    (hs : List Happening) : (c.laden m past).afterAll hs = (c.afterAll hs).laden m past := by
  induction hs generalizing c with
  | nil => rfl
  | cons h hs ih =>
    have hm' := (onward_afterAll c [h]).le_length_mailboxes hm
    exact (congrArg (afterAll · hs) (after_laden c hm h)).trans (ih _ hm')

end Client

/-- A waiter whose mailbox may have any number. -/
def Correlator.Waiter.face (w : Waiter) : Waiter := { w with ticket := 0 }

/-- A stage, whichever numbers mailboxes have. -/
def Stage.face : Stage → Stage
  | .send s => .send { s with waiter := s.waiter.map (·.face) }
  | .await w due => .await w.face due
  | s => s

namespace Client

variable {m : Nat} {past : List Incident} {c c' d : Client}

/-- All that there is to a client but for mailboxes, their numbers, and what has been written
down. -/
def face (c : Client) : Client :=
  { c with
    calls := c.calls.map fun call => { call with stage := call.stage.face }
    correlator :=
      { c.correlator with
        slots := c.correlator.slots.map fun e => (e.1, { e.2 with ticket := 0 })
        mailboxes := [] }
    journal := [] }

theorem face_laden (c : Client) : (c.laden m past).face = c.face := by
  have hs : ∀ s : Stage, (s.moved m).face = s.face := by
    intro s
    cases s with
    | send s =>
      unfold Stage.moved Sending.moved Stage.face
      dsimp only
      rw [Option.map_map]
      rfl
    | _ => rfl
  unfold face laden Correlator.laden
  dsimp only
  rw [List.map_map, List.map_map]
  congr 1
  refine List.map_congr_left fun call _ => ?_
  exact congrArg (Call.mk call.job) (hs call.stage)

/-- Two clients do the same from now on, whatever happens to them. -/
structure Alike (c d : Client) : Prop where
  face : ∀ hs, (c.afterAll hs).face = (d.afterAll hs).face
  journal : ∀ hs, ∃ new, (c.afterAll hs).journal = c.journal ++ new ∧
    (d.afterAll hs).journal = d.journal ++ new

/-- A client does the same with an abandoned mailbox more, and after something else has been written
down. -/
theorem alike_laden (d : Client) (hm : m ≤ d.correlator.mailboxes.length) :
    Alike ({ d with journal := [] }.laden m past) d := by
  have hn : { d with journal := [] }.laden m d.journal = d.laden m [] := by
    unfold laden
    dsimp only
    rw [List.append_nil, List.nil_append]
  have hc : ∀ hs, ({ d with journal := [] }.laden m past).afterAll hs =
      (({ d with journal := [] } : Client).afterAll hs).laden m past := afterAll_laden _ hm
  have hd : ∀ hs, (d.afterAll hs).laden m [] =
      (({ d with journal := [] } : Client).afterAll hs).laden m d.journal := by
    intro hs
    rw [← afterAll_laden d hm, ← hn]
    exact afterAll_laden { d with journal := [] } hm hs
  refine ⟨fun hs => ?_,
    fun hs => ⟨(({ d with journal := [] } : Client).afterAll hs).journal, ?_, ?_⟩⟩
  · have hf : ((d.afterAll hs).laden m []).face = (d.afterAll hs).face := face_laden _
    rw [hc, face_laden, ← hf, hd, face_laden]
  · rw [hc]
    exact congrArg (· ++ _) (List.append_nil _).symm
  · exact congrArg journal (hd hs)

/-! ### The program's own runs -/

theorem Onward.journal_eq (h : c.Onward c') : ∃ l, c'.journal = c.journal ++ l :=
  h.induct (P := fun d => ∃ l, d.journal = c.journal ++ l)
    (fun hm ⟨l, hj⟩ => by
      obtain ⟨l', hj', -⟩ := hm.adds
      exact ⟨l ++ l', by rw [hj', hj, List.append_assoc]⟩)
    (fun _ hx => hx) ⟨[], (List.append_nil _).symm⟩

theorem work_face (c : Client) : c.face.work = c.work := by
  have hr : ∀ s : Stage, s.face.rank = s.rank := fun s => by cases s <;> rfl
  have hl : ∀ calls : List Call,
      load (calls.map fun call => { call with stage := call.stage.face }) = load calls := by
    intro calls
    induction calls with
    | nil => rfl
    | cons call calls ih => rw [List.map_cons, load, load, ih, hr]
  unfold work potential face Correlator.size
  dsimp only
  rw [hl, List.length_map, List.length_map]

namespace Alike

theorem after (h : Alike c d) (x : Happening) : Alike (c.after x) (d.after x) where
  face hs := h.face (x :: hs)
  journal hs := by
    obtain ⟨new, hc, hd⟩ := h.journal [x]
    obtain ⟨new', hc', hd'⟩ := h.journal (x :: hs)
    obtain ⟨l, hl⟩ := (onward_afterAll (c.after x) hs).journal_eq
    have hc : (c.after x).journal = c.journal ++ new := hc
    have hd : (d.after x).journal = d.journal ++ new := hd
    have hx : c.journal ++ (new ++ l) = c.journal ++ new' := by
      rw [← List.append_assoc, ← hc, ← hl]
      exact hc'
    refine ⟨l, hl, ?_⟩
    rw [hd, List.append_assoc, List.append_cancel_left hx]
    exact hd'

theorem ready_eq (h : Alike c d) : c.ready = d.ready := by
  have hr := congrArg Client.ready (h.face [])
  exact hr

theorem settleFor (h : Alike c d) (fuel : Nat) : Alike (c.settleFor fuel) (d.settleFor fuel) := by
  induction fuel generalizing c d with
  | zero => exact h
  | succ fuel ih =>
    unfold Client.settleFor
    rw [h.ready_eq]
    cases d.ready with
    | nil => exact h
    | cons t l => exact ih (h.after (.turn t))

/-- **Clients that do the same do so as the program runs them.** -/
theorem performAll (h : Alike c d) (as : List Action) :
    Alike (c.performAll as) (d.performAll as) := by
  induction as generalizing c d with
  | nil => exact h
  | cons a as ih =>
    have ha : Alike (c.act a) (d.act a) := h.after (.act a)
    have hw : (c.act a).work = (d.act a).work := by
      rw [← work_face, ← work_face (d.act a)]
      exact congrArg work (ha.face [])
    refine ih ?_
    unfold perform settle
    rw [hw]
    exact ha.settleFor _

end Alike

end Client

end DocWire
