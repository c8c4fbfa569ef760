import DocWire.Failure
import DocWire.Message
import DocWire.Routes

/-!
# Callbacks that act on the routes

A callback may itself open and close routes and dispatch events, before the dispatch that called it
is over. Here a callback is a list of such steps with a name, and running it is a matter of running
the steps. A dispatch looks its route up before the callback runs, so a callback that closes or
replaces its own route is not disturbed. A step `abort` ends the callback that it stands in, and
nothing else.

Callbacks can dispatch to themselves for ever, so running takes a bound on the depth to which
dispatches are nested, and a run that goes beyond it has no result.
-/

namespace DocWire.Routes

/-- A step on the routes. There may be no event to dispatch, and `abort` ends the callback that
takes it. -/
inductive Step where
  | subscribe (id tag : String) (callback : List Step)
  | unsubscribe (id : String)
  | dispatch (id : String) (event : Except Failure ChangeEvent)
  | clear
  | contains (id : String)
  | abort
  deriving Inhabited

/-- A callback: its name and the steps that it takes for every event. -/
structure Callback where
  tag : String
  steps : List Step
  deriving Inhabited

/-- What a step gives back. -/
inductive Outcome where
  | nothing
  | flag (b : Bool)
  | count (n : Nat)
  | failed (e : Failure)

/-- What callbacks leave in the log: that they were called, and the steps that they have taken. -/
inductive Entry where
  | called (tag : String) (event : ChangeEvent)
  | did (tag : String) (step : Step) (outcome : Outcome)

/-- The routes, and all that callbacks have logged. -/
structure Board where
  routes : Routes Callback
  log : List Entry

namespace Board

/-- A board without routes. -/
def empty : Board := ⟨.empty, []⟩

/-- Adds an entry to the log. -/
def record (b : Board) (e : Entry) : Board := { b with log := b.log ++ [e] }

/-- Takes a step; `call` runs a callback, if it comes to an end. -/
def act (call : Callback → ChangeEvent → Board → Option Board) (b : Board) :
    Step → Option (Outcome × Board)
  | .subscribe id tag steps =>
    let (opened, routes) := b.routes.subscribe id ⟨tag, steps⟩
    some (.flag opened, { b with routes := routes })
  | .unsubscribe id =>
    let (closed, routes) := b.routes.unsubscribe id
    some (.flag closed, { b with routes := routes })
  | .dispatch _ (.error e) => some (.failed e, b)
  | .dispatch id (.ok event) =>
    match b.routes.get? id with
    | none => some (.flag false, b)
    | some callback => (call callback event b).map fun b => (.flag true, b)
  | .clear =>
    let (n, routes) := b.routes.clear
    some (.count n, { b with routes := routes })
  | .contains id => some (.flag (b.routes.contains id), b)
  | .abort => some (.nothing, b)

/-- Takes the steps of a callback one after the other, up to an `abort`. -/
def runSteps (call : Callback → ChangeEvent → Board → Option Board) (tag : String) :
    List Step → Board → Option Board
  | [], b => some b
  | .abort :: _, b => some b
  | s :: rest, b =>
    match b.act call s with
    | some (outcome, b) => runSteps call tag rest (b.record (.did tag s outcome))
    | none => none

/-- Runs a callback for an event, if dispatches are nested less than `depth` deep in it. -/
def call : (depth : Nat) → Callback → ChangeEvent → Board → Option Board
  | 0, _, _, _ => none
  | depth + 1, callback, event, b =>
    runSteps (call depth) callback.tag callback.steps (b.record (.called callback.tag event))

/-- Takes a step on the board, if dispatches are nested at most `depth` deep in it. -/
def stepWithin (depth : Nat) (b : Board) (s : Step) : Option (Outcome × Board) :=
  b.act (call depth) s

/-- The depth to which dispatches may be nested. -/
def maxDepth : Nat := 10000

/-- Takes a step on the board, unless it dispatches too deep. -/
def step? (b : Board) (s : Step) : Option (Outcome × Board) := b.stepWithin maxDepth s

end Board

end DocWire.Routes
