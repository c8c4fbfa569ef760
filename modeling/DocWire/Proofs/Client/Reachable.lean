import Mathlib.Logic.Relation
import DocWire.Client.Run

/-! # Runs of a client

A run is any series of things that happen from outside and turns of tasks, in any order: every task
may take a turn at any time, also one that cannot go on yet. The runs of `performAll`, in which all
tasks that can go on do so before the next thing happens, are among them.

When the reader may go on, it may find both a frame that has arrived and the signal to stop, and then
it takes up either. In a turn of `run` it takes up the signal. Here it may also take up any number of
frames first (`overlook`), so `Possible` states are more than those that turns alone lead to
(`Reachable`). What holds of every possible state holds, then, whichever way the tasks take their
turns and whatever the reader takes up first. -/

namespace DocWire.Client

/-- One thing that happens to a client: something from outside, or a turn of a task. -/
inductive Follows : Client → Client → Prop
  | act (c : Client) (a : Action) : Follows c (c.act a)
  | turn (c : Client) (t : Task) : Follows c (c.turn t)

/-- The states that a client can come to from a state while its reader heeds the signal to stop. -/
def Later : Client → Client → Prop := Relation.ReflTransGen Follows

/-- The states that a client can come to while its reader heeds the signal to stop. -/
def Reachable (config : Config) (c : Client) : Prop := (initial config).Later c

variable {c c' : Client} {config : Config}

theorem Later.refl (c : Client) : c.Later c := Relation.ReflTransGen.refl

theorem Later.trans {c'' : Client} (h : c.Later c') (h' : c'.Later c'') : c.Later c'' :=
  Relation.ReflTransGen.trans h h'

theorem Later.act (h : c.Later c') (a : Action) : c.Later (c'.act a) := h.tail (.act c' a)

theorem Later.turn (h : c.Later c') (t : Task) : c.Later (c'.turn t) := h.tail (.turn c' t)

theorem later_settleFor (fuel : Nat) (c : Client) : c.Later (c.settleFor fuel) := by
  induction fuel generalizing c with
  | zero => exact .refl c
  | succ fuel ih =>
    unfold settleFor
    split
    · exact .refl c
    · exact ((Later.refl c).turn _).trans (ih _)

theorem later_perform (c : Client) (a : Action) : c.Later (c.perform a) :=
  ((Later.refl c).act a).trans (later_settleFor _ _)

theorem later_performAll (c : Client) (as : List Action) : c.Later (c.performAll as) := by
  induction as generalizing c with
  | nil => exact .refl c
  | cons a as ih => exact (later_perform c a).trans (ih (c.perform a))

theorem Reachable.later (h : Reachable config c) (h' : c.Later c') : Reachable config c' :=
  Later.trans h h'

/-- **Every state of a run in turns is reachable.** -/
theorem reachable_performAll (config : Config) (as : List Action) :
    Reachable config ((Client.initial config).performAll as) :=
  later_performAll _ as

/-! ### Runs in which the reader overlooks the signal to stop -/

/-- The reader takes up frames, at most `count` of them, whether it has been asked to stop or not. -/
def overlook (c : Client) (count : Nat) : Client :=
  match c.reader with
  | .reading b => c.readFrames count b
  | _ => c

/-- One thing that happens to a client, where the reader may overlook the signal to stop. -/
inductive Goes : Client → Client → Prop
  | follows {c c' : Client} (h : c.Follows c') : Goes c c'
  | overlook (c : Client) (count : Nat) : Goes c (c.overlook count)

/-- The states that a client can come to from a state. -/
def Onward : Client → Client → Prop := Relation.ReflTransGen Goes

/-- The states that a client can come to. -/
def Possible (config : Config) (c : Client) : Prop := (initial config).Onward c

namespace Onward

variable {c'' : Client}

theorem refl (c : Client) : c.Onward c := Relation.ReflTransGen.refl

theorem trans (h : c.Onward c') (h' : c'.Onward c'') : c.Onward c'' :=
  Relation.ReflTransGen.trans h h'

theorem act (h : c.Onward c') (a : Action) : c.Onward (c'.act a) := h.tail (.follows (.act c' a))

theorem turn (h : c.Onward c') (t : Task) : c.Onward (c'.turn t) := h.tail (.follows (.turn c' t))

theorem overlook (h : c.Onward c') (count : Nat) : c.Onward (c'.overlook count) :=
  h.tail (.overlook c' count)

end Onward

theorem Later.onward (h : c.Later c') : c.Onward c' :=
  Relation.ReflTransGen.mono (fun _ _ hf => Goes.follows hf) _ _ h

theorem Reachable.possible (h : Reachable config c) : Possible config c := Later.onward h

theorem Possible.onward (h : Possible config c) (h' : c.Onward c') : Possible config c' :=
  Onward.trans h h'

end DocWire.Client
