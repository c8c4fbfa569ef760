import DocWire.Client.Run

/-!
# One client, driven step by step

A bench holds one client whose calls have names, and tells after every step what can be seen: which
calls have ended and which are waiting, what callbacks were given, what the peer received, and how
the connection stands.
-/

namespace DocWire.Client

open DocWire.Stream (Sent SinkChange)

/-- A client whose calls have names, and how much of what can be seen has been told: which calls
have ended or been given up, how many of the bytes that the peer received, and how much of the
journal. -/
structure Bench where
  client : Client
  tags : List String
  told : List Nat
  toldBytes : Nat
  toldJournal : Nat

/-- A step at a bench. A subscription is closed through the client (`callUnsubscribe`) or through
its own handle, which outlives the client (`unsubscribe`). -/
inductive Step where
  | connect
  | call (tag : String) (op : Operation)
  | disconnect (tag : String)
  | callUnsubscribe (tag subscription : String)
  | unsubscribe (tag subscription : String)
  | feed (more : List Sent)
  | change (c : SinkChange)
  | advance (millis : Nat)
  | cancel (tag : String)
  | drop
  | inspect
  deriving Inhabited

/-- How a connection stands, as long as the client is held. -/
structure Standing where
  life : Life
  pending : Nat
  subscriptions : Nat
  deriving DecidableEq, Repr, Inhabited

/-- What can be seen after a step: the calls that have ended and those still running, in the order
in which they were started; the events that callbacks were given; what the peer has received; and
every subscription ever opened, with whether it is still routed. -/
structure Report where
  ended : List (String × Except Failure Outcome)
  waiting : List String
  events : List (String × ChangeEvent)
  received : List UInt8
  shutdownAsked : Bool
  released : Bool
  active : List (String × Bool)
  note : Option String
  standing : Option Standing

namespace Bench

/-- A bench with a client that has not been connected. -/
def initial (config : Config) : Bench := ⟨Client.initial config, [], [], 0, 0⟩

/-- The name of a call. -/
def tag (b : Bench) (n : Nat) : String := b.tags.getD n ""

/-- The numbers of all calls. -/
def numbers (b : Bench) : List Nat := List.range b.client.calls.length

/-- The subscriptions that have been opened: call and id. -/
def subscriptions (b : Bench) : List (Nat × String) :=
  b.numbers.filterMap fun n =>
    match b.client.stage n with
    | .done (.ok (.result (.subscription id))) => some (n, id)
    | _ => none

/-- The id of the subscription that a call of this name has opened. -/
def subscription? (b : Bench) (name : String) : Option String :=
  (b.subscriptions.reverse.find? fun (n, _) => b.tag n == name).map (·.2)

/-- Starts a call under a name. -/
def start (b : Bench) (name : String) (job : Job) : Bench :=
  { b with client := b.client.perform (.start job), tags := b.tags ++ [name] }

/-- Starts a call that needs a client. -/
def startHeld (b : Bench) (name : String) (job : Job) : Option String × Bench :=
  if b.client.held then (none, b.start name job) else (some "no client", b)

/-- Does something else to the client. -/
def perform (b : Bench) (a : Action) : Bench := { b with client := b.client.perform a }

/-- Takes a step; there is a note if it could not be taken, or was only a look. -/
def act (b : Bench) : Step → Option String × Bench
  | .connect => (none, b.start "connect" .connect)
  | .call name op => b.startHeld name (.operation op)
  | .disconnect name => b.startHeld name .disconnect
  | .callUnsubscribe name sub => b.startHeld name (.unsubscribe (b.subscription? sub))
  | .unsubscribe name sub =>
    match b.subscription? sub with
    | some id => (none, b.start name (.unsubscribe (some id)))
    | none => (some "no subscription", b)
  | .feed more => (none, b.perform (.feed more))
  | .change c => (none, b.perform (.change c))
  | .advance millis => (none, b.perform (.advance millis))
  | .cancel name =>
    match b.numbers.find? fun n => b.tag n == name && (b.client.stage n).isOpen with
    | some n => (none, b.perform (.cancel n))
    | none => (some "not running", b)
  | .drop => (none, b.perform .drop)
  | .inspect => (if b.client.held then some b.client.text else none, b)

/-- What there is to tell. -/
def report (b : Bench) (note : Option String) : Report :=
  let c := b.client
  { ended := b.numbers.filterMap fun n =>
      match c.stage n with
      | .done r => if n ∈ b.told then none else some (b.tag n, r)
      | _ => none
    waiting := (b.numbers.filter fun n => (c.stage n).isOpen).map b.tag
    events := (c.journal.drop b.toldJournal).filterMap fun
      | .notified n event => some (b.tag n, event)
      | _ => none
    received := c.peer.taken.drop b.toldBytes
    shutdownAsked := c.peer.shutdownAsked
    released := c.isReleased
    active := b.subscriptions.map fun (n, id) => (b.tag n, c.isAlive && c.routes.contains id)
    note := note
    standing := if c.held then some ⟨c.life, c.correlator.size, c.routes.size⟩ else none }

/-- Everything that can be seen has been told. -/
def tell (b : Bench) : Bench :=
  { b with
    told := b.numbers.filter fun n => !(b.client.stage n).isOpen
    toldBytes := b.client.peer.taken.length
    toldJournal := b.client.journal.length }

/-- Takes a step and tells what can be seen. -/
def step (b : Bench) (s : Step) : Report × Bench :=
  let (note, b) := b.act s
  (b.report note, b.tell)

end Bench

end DocWire.Client
