import DocWire.Correlator

/-!
# One correlator, driven step by step

A desk holds one correlator and everything that comes out of it: waiters, slots and running waits,
each under a name, and a clock. A wait that runs ends as soon as its mailbox is decided or its time
is up, and its waiter leaves with it; waits whose time is up end in the order of their deadlines,
and an end may decide the mailbox of another wait.
-/

namespace DocWire.Correlator

/-- A wait that has been started; when it is due it ends without a reply. -/
structure Wait where
  waiter : Waiter
  bound : Span
  due : Nat
  result : Option (Except Failure Reply)

/-- One correlator with all that has come out of it; the clock counts milliseconds. `waits` has the
waits started in the background that have not been given up, in order, by their numbers; some can be
asked for by name. `calls` counts how often subscriptions have been called. -/
structure Desk where
  correlator : Correlator Unit
  waiters : List (String × Waiter)
  slots : List (String × Slot Unit)
  waits : List (Nat × Wait)
  waitNames : List (String × Nat)
  started : Nat
  calls : Nat
  now : Nat

/-- One step at a desk. -/
inductive Step where
  | register (id name : String) (subscription : Bool)
  | deliver (id : String) (reply : Reply)
  | take (id name : String)
  | callSubscription (name : String)
  | fulfill (name : String) (reply : Reply)
  | dropSlot (name : String)
  | dropPending (name : String)
  | wait (name : String) (millis : Nat)
  | startWait (name : String) (millis : Nat)
  | cancelWait (name : String)
  | advance (millis : Nat)
  | poll (name : String)
  | failAll
  | contains (id : String)
  deriving Repr, Inhabited

/-- What a step gives back. -/
inductive Outcome where
  | nothing
  | registered (waiter : Waiter)
  | failed (e : Failure)
  | flag (b : Bool)
  | count (n : Nat)
  | taken (subscription : Bool)
  | pending
  | ended (result : Except Failure Reply)

namespace Desk

/-- A desk with nothing on it. -/
def empty : Desk := ⟨.empty, [], [], [], [], 0, 0, 0⟩

/-- The waiter of a registration leaves. -/
def leave (d : Desk) (w : Waiter) : Desk :=
  { d with correlator := d.correlator.leave w }

/-- Ends a running wait if it can end. -/
def endWait (d : Desk) (n : Nat) : Desk :=
  match d.waits.lookup n with
  | none => d
  | some w =>
    if w.result.isSome then d
    else
      match d.correlator.outcome? w.waiter (w.due ≤ d.now) w.bound with
      | none => d
      | some result =>
        { d.leave w.waiter with
          waits := d.waits.map fun (k, v) =>
            (k, if k = n then { v with result := some result } else v) }

/-- The numbers of the waits whose time is up, in the order of their deadlines. -/
def dueWaits (d : Desk) : List Nat :=
  let due := d.waits.filter fun (_, w) => w.result.isNone && w.due ≤ d.now
  (due.mergeSort fun a b => a.2.due ≤ b.2.due).map (·.1)

/-- Ends all waits that can end: first those whose time is up, then those whose mailboxes are
decided, until there are none. -/
def settle (d : Desk) : Desk :=
  let d := d.dueWaits.foldl endWait d
  let numbers := d.waits.map (·.1)
  numbers.foldl (fun d _ => numbers.foldl endWait d) d

/-- The next deadline of a wait in the background. -/
def nextDue? (d : Desk) : Option Nat :=
  (d.waits.filterMap fun (_, w) => if w.result.isNone then some w.due else none).min?

/-- Waits in the foreground, while the clock moves from deadline to deadline; waits in the
background end on the way, at most `fuel` times. At a common deadline the foreground comes first. -/
def waitHere (w : Waiter) (bound : Span) (due : Nat) : Nat → Desk → Except Failure Reply × Desk
  | 0, d => (.error (.timeout bound), d.leave w)
  | fuel + 1, d =>
    match d.correlator.outcome? w (due ≤ d.now) bound with
    | some result => (result, d.leave w)
    | none =>
      let next := match d.nextDue? with
        | some t => min t due
        | none => due
      let d := { d with now := max next d.now }
      waitHere w bound due fuel (if next < due then d.settle else d)

/-- Takes a step, without what follows from it. -/
def act (d : Desk) : Step → Outcome × Desk
  | .register id name subscription =>
    match d.correlator.register id (if subscription then some () else none) with
    | .error e => (.failed e, d)
    | .ok (waiter, c) =>
      let old := d.waiters.lookup name
      let d := { d with
        correlator := c
        waiters := (name, waiter) :: Entries.without name d.waiters }
      (.registered waiter, match old with
        | some w => d.leave w
        | none => d)
  | .deliver id reply =>
    let (found, c) := d.correlator.deliver id reply
    (.flag found, { d with correlator := c })
  | .take id name =>
    match d.correlator.take id with
    | (none, c) => (.nothing, { d with correlator := c })
    | (some slot, c) =>
      let c := match d.slots.lookup name with
        | some old => c.dropSlot old
        | none => c
      (.taken slot.subscription.isSome,
        { d with correlator := c, slots := (name, slot) :: Entries.without name d.slots })
  | .callSubscription name =>
    let called := ((d.slots.lookup name).bind (·.subscription)).isSome
    let calls := if called then d.calls + 1 else d.calls
    (.count calls, { d with calls := calls })
  | .fulfill name reply =>
    match d.slots.lookup name with
    | none => (.nothing, d)
    | some slot =>
      let (found, c) := d.correlator.fulfill slot reply
      (.flag found, { d with correlator := c, slots := Entries.without name d.slots })
  | .dropSlot name =>
    match d.slots.lookup name with
    | none => (.flag false, d)
    | some slot =>
      (.flag true,
        { d with correlator := d.correlator.dropSlot slot, slots := Entries.without name d.slots })
  | .dropPending name =>
    match d.waiters.lookup name with
    | none => (.flag false, d)
    | some w => (.flag true, { d.leave w with waiters := Entries.without name d.waiters })
  | .wait name millis =>
    match d.waiters.lookup name with
    | none => (.nothing, d)
    | some w =>
      let d := { d with waiters := Entries.without name d.waiters }
      let (result, d) :=
        waitHere w (Span.ofMillis millis) (d.now + millis) (2 * d.waits.length + 3) d
      (.ended result, d)
  | .startWait name millis =>
    match d.waiters.lookup name with
    | none => (.flag false, d)
    | some w =>
      let wait : Wait := ⟨w, Span.ofMillis millis, d.now + millis, none⟩
      (.flag true,
        { d with
          waiters := Entries.without name d.waiters
          waits := d.waits ++ [(d.started, wait)]
          waitNames := (name, d.started) :: Entries.without name d.waitNames
          started := d.started + 1 })
  | .cancelWait name =>
    match d.waitNames.lookup name with
    | none => (.flag false, d)
    | some n =>
      let dropped := { d with
        waits := d.waits.filter fun entry => entry.1 != n
        waitNames := Entries.without name d.waitNames }
      (.flag true,
        match d.waits.lookup n with
        | some w => if w.result.isNone then dropped.leave w.waiter else dropped
        | none => dropped)
  | .advance millis => (.nothing, { d with now := d.now + millis })
  | .poll name =>
    match (d.waitNames.lookup name).bind fun n => (d.waits.lookup n).map fun w => (n, w) with
    | none => (.nothing, d)
    | some (n, w) =>
      match w.result with
      | none => (.pending, d)
      | some result =>
        (.ended result,
          { d with
            waits := d.waits.filter fun entry => entry.1 != n
            waitNames := Entries.without name d.waitNames })
  | .failAll =>
    let (n, c) := d.correlator.failAll
    (.count n, { d with correlator := c })
  | .contains id => (.flag (d.correlator.contains id), d)

/-- Takes a step, and then ends all waits that can end. -/
def step (d : Desk) (s : Step) : Outcome × Desk :=
  let (outcome, d) := d.act s
  (outcome, d.settle)

end Desk

end DocWire.Correlator
