import DocWire.Client.Operation
import DocWire.Frame.Reader
import DocWire.Handshake.Exchange
import DocWire.Routes

/-!
# The state of a client

A client is a number of tasks that share one connection: the calls that have been started, and the
reader, which takes frames off the stream. A task runs until it has to wait; what it waits for is
its stage. Tasks that can go on stand in `ready`, in the order in which they became able to.

The write path is guarded by a lock that is handed over in the order of asking. Its holder may be
writing a frame; a frame that is left half written leaves the write path torn, and whoever lets go
of a torn write path gives up the writing half of the stream.
-/

namespace DocWire

open DocWire.Correlator (Waiter)
open DocWire.Stream (Source Sink)

/-- A task of a client; calls are numbered in the order in which they were started. -/
inductive Task where
  | reader
  | call (n : Nat)
  deriving DecidableEq, Repr, Inhabited

/-- What a call is to do. The subscription to be closed may never have been opened. -/
inductive Job where
  | connect
  | operation (op : Operation)
  | unsubscribe (subscription : Option String)
  | disconnect
  deriving Inhabited

/-- What a call can come to; `nothing` where there was nothing to do. -/
inductive Outcome where
  | connected (session : Handshake.Session)
  | result (r : Result)
  | done
  | nothing
  deriving Repr, Inhabited

/-- A frame on its way out: the bytes that the peer has not taken, the size of the whole frame, the
waiter for the reply if there will be one, and the time by which the frame has to be out. -/
structure Sending where
  rest : List UInt8
  size : Nat
  waiter : Option Waiter
  due : Nat
  deriving DecidableEq, Repr, Inhabited

/-- What a task does once the connection is closed: it ends, or waits for the reader to end. -/
inductive AfterClose where
  | finish (r : Except Failure Outcome)
  | join

/-- How far a call has come. It stands in line for the write path to send a request (`lock`) or to
shut the path down (`closeLock`), and holds the path in `send`; in `closeShutdown` it has the
writing half and shuts it down. `join` waits for the reader to end, and `dropped` is a call given up
by its caller. -/
inductive Stage where
  | fresh
  | handshake (e : Handshake.Exchange) (due : Nat)
  | lock
  | send (s : Sending)
  | await (w : Waiter) (due : Nat)
  | closeLock (k : AfterClose)
  | closeShutdown (k : AfterClose)
  | join
  | done (r : Except Failure Outcome)
  | dropped

/-- Whether a call has neither ended nor been given up. -/
def Stage.isOpen : Stage → Bool
  | .done _ | .dropped => false
  | _ => true

/-- Whether a call waits for the peer to take something or to let itself be shut down. -/
def Stage.waitsForPeer : Stage → Bool
  | .handshake _ _ | .send _ | .closeShutdown _ => true
  | _ => false

/-- Whether a call is in the handshake. -/
def Stage.inHandshake : Stage → Bool
  | .handshake _ _ => true
  | _ => false

/-- How far the reader has come; before there is a connection it is absent. -/
inductive ReaderStage where
  | absent
  | reading (b : Frame.Buffer)
  | closeLock
  | closeShutdown
  | ended
  deriving DecidableEq, Repr, Inhabited

/-- Whether a call waits for the reader to end. -/
def Stage.joins : Stage → Bool
  | .join => true
  | _ => false

/-- How far a call is from its end. -/
def Stage.rank : Stage → Nat
  | .fresh => 20
  | .handshake _ _ => 16
  | .lock => 12
  | .send _ => 8
  | .await _ _ => 6
  | .closeLock _ => 4
  | .closeShutdown _ => 3
  | .join => 2
  | .done _ | .dropped => 0

/-- How far the reader is from its end. -/
def ReaderStage.rank : ReaderStage → Nat
  | .reading _ => 8
  | .closeLock => 4
  | .closeShutdown => 3
  | .absent | .ended => 0

/-- A call that has been started. -/
structure Call where
  job : Job
  stage : Stage

/-- The life of a connection. -/
inductive Life where
  | unconnected
  | connected
  | closing
  | closed
  deriving DecidableEq, Repr, Inhabited

/-- The name of a stage in the life of a connection. -/
def Life.name : Life → String
  | unconnected => "Disconnected"
  | connected => "Connected"
  | closing => "Closing"
  | closed => "Closed"

/-- Where the writing half of the stream is: with the reading half, before anyone connects
(`unused`) and during the handshake (`unsplit`); in the write path (`held`); in the hands of the
task that shuts it down (`leaving`); or gone. -/
inductive WriteHalf where
  | unused
  | unsplit
  | held
  | leaving
  | gone
  deriving DecidableEq, Repr, Inhabited

/-- The write path: the task that holds the lock, those in line behind it, and all that have had it,
in order. `torn` says that the frame being written has been taken in part, and `nextId` is the id of
the next request. -/
structure WritePath where
  holder : Option Task
  queue : List Task
  takers : List Task
  half : WriteHalf
  torn : Bool
  nextId : Nat
  deriving DecidableEq, Repr, Inhabited

namespace WritePath

/-- The write path of a stream that nobody has begun to use. -/
def unused : WritePath := ⟨none, [], [], .unused, false, 1⟩

/-- Gives the lock to a task. -/
def give (w : WritePath) (t : Task) : WritePath :=
  { w with holder := some t, takers := w.takers ++ [t] }

/-- Gives the lock to a task if it is free, or else a place in the line for it. -/
def acquire (w : WritePath) (t : Task) : WritePath :=
  match w.holder with
  | none => w.give t
  | some _ => { w with queue := w.queue ++ [t] }

/-- Hands the lock to the first in line. -/
def release (w : WritePath) : WritePath :=
  match w.queue with
  | [] => { w with holder := none }
  | t :: rest => { w with queue := rest }.give t

/-- Drops the writing half of the stream if it is here. -/
def dropHalf (w : WritePath) : WritePath :=
  match w.half with
  | .held => { w with half := .gone }
  | _ => w

/-- Lets go of the lock; a write path that is torn loses its half of the stream. -/
def leave (w : WritePath) : WritePath :=
  if w.torn then { w.dropHalf with torn := false }.release else w.release

/-- Takes a task out of the line, or the lock from it. -/
def withdraw (w : WritePath) (t : Task) : WritePath :=
  if w.holder = some t then w.release else { w with queue := w.queue.filter (· != t) }

end WritePath

/-- Where the events of a subscription go: to the callback of a call, which may fail every time. -/
structure Target where
  call : Nat
  fails : Bool
  deriving DecidableEq, Repr, Inhabited

/-- The time at which a call is to be woken. -/
structure Timer where
  due : Nat
  call : Nat
  deriving DecidableEq, Repr, Inhabited

/-- What is written down about a connection as it happens: a request is registered under an id; a
call that has the write path sets out to send a message, whose frame is then out at some time or
fails; a frame is routed; a callback is given an event; a wait ends with a reply, or the waiter of
an id leaves.

A subscription is closed by its caller (`unsubscribed`), or its reply is turned down (`rejected`).
With `closing` all requests have failed and all routes are gone. -/
inductive Incident where
  | registered (call : Nat) (id : String)
  | sending (call : Nat) (m : ClientMessage)
  | sent (call time : Nat)
  | unsent (call : Nat) (e : Failure)
  | routed (f : Frame)
  | notified (call : Nat) (event : ChangeEvent)
  | answered (call : Nat) (reply : Reply)
  | left (id : String)
  | unsubscribed (id : String)
  | rejected (id : String)
  | closing
  deriving Repr, Inhabited

/-- A client with its stream and a clock that counts milliseconds. It is `held` from the moment the
connection comes into being until everybody has let go of it, and `joinable` as long as nobody has
waited for the end of the reader. -/
structure Client where
  config : Config
  source : Source
  peer : Sink
  now : Nat
  calls : List Call
  ready : List Task
  timers : List Timer
  held : Bool
  life : Life
  session : Option Handshake.Session
  write : WritePath
  correlator : Correlator Target
  routes : Routes Target
  stopAsked : Bool
  reader : ReaderStage
  joinable : Bool
  journal : List Incident

namespace Client

/-- A client that has not been connected. -/
def initial (config : Config) : Client where
  config := config
  source := Source.quiet
  peer := Sink.eager
  now := 0
  calls := []
  ready := []
  timers := []
  held := false
  life := .unconnected
  session := none
  write := .unused
  correlator := Correlator.empty
  routes := Routes.empty
  stopAsked := false
  reader := .absent
  joinable := false
  journal := []

/-- The stage of a call; one that was never started counts as given up. -/
def stage (c : Client) (n : Nat) : Stage := (c.calls[n]?.map (·.stage)).getD .dropped

/-- Whether requests can be made. -/
def isConnected (c : Client) : Bool := c.life == .connected

/-- Whether both halves of the stream have been let go. -/
def isReleased (c : Client) : Bool := c.reader == .ended && c.write.half == .gone

/-- Whether the connection exists for those who only know of it: the client is held, or the reader
is closing it. -/
def isAlive (c : Client) : Bool :=
  c.held || c.reader == .closeLock || c.reader == .closeShutdown

/-- The encoding of the session. -/
def encoding (c : Client) : Encoding := (c.session.map (·.encoding)).getD .messagePack

/-- A connected client as it is shown. -/
def text (c : Client) : String :=
  Text.record "Client"
    [("session_id", (c.session.map (·.idText)).getD ""), ("encoding", c.encoding.title),
      ("state", c.life.name)]

/-- The bound on writing a frame and on waiting for a reply, as a deadline from now on. -/
def requestDue (c : Client) : Nat := c.now + c.config.requestTimeout.toMillis

/-- Writes something down. -/
def record (c : Client) (i : Incident) : Client := { c with journal := c.journal ++ [i] }

/-! ### Tasks, timers and the lock -/

/-- Lets a task go on when its turn comes. -/
def wake (c : Client) (t : Task) : Client :=
  if t ∈ c.ready then c else { c with ready := c.ready ++ [t] }

/-- Lets the first task of a line go on. -/
def wakeFirst (c : Client) : List Task → Client
  | [] => c
  | t :: _ => c.wake t

/-- Changes the stage of a call. -/
def setStage (c : Client) (n : Nat) (s : Stage) : Client :=
  { c with calls := c.calls.modify n fun call => { call with stage := s } }

/-- Stops the timer of a call. -/
def clearTimer (c : Client) (n : Nat) : Client :=
  { c with timers := c.timers.filter fun t => t.call != n }

/-- Sets the timer of a call, unless it is already set to that time. -/
def setTimer (c : Client) (n due : Nat) : Client :=
  if ⟨due, n⟩ ∈ c.timers then c
  else { c.clearTimer n with timers := (c.clearTimer n).timers ++ [⟨due, n⟩] }

/-- Ends a call. -/
def finish (c : Client) (n : Nat) (r : Except Failure Outcome) : Client :=
  (c.clearTimer n).setStage n (.done r)

/-- Whether a task has the lock. -/
def holds (c : Client) (t : Task) : Bool := c.write.holder == some t

/-- Hands the lock to the first in line. -/
def release (c : Client) : Client :=
  { c with write := c.write.release }.wakeFirst c.write.queue

/-- Asks the reader to stop. -/
def askStop (c : Client) : Client := { c with stopAsked := true }.wake .reader

/-- Drops the writing half of the stream if it is in the write path. -/
def dropHalf (c : Client) : Client := { c with write := c.write.dropHalf }

/-- Lets go of the write path; one that is torn loses its half of the stream, and the reader has to
stop. -/
def vacate (c : Client) : Client :=
  { c with write := c.write.leave, stopAsked := c.stopAsked || c.write.torn }

/-- Leaves the write path, and lets the reader and the first in line go on. -/
def leaveWritePath (c : Client) : Client :=
  (if c.write.torn then c.vacate.wake .reader else c.vacate).wakeFirst c.write.queue

/-- Takes a task out of the line, or the lock from it. -/
def withdraw (c : Client) (t : Task) : Client :=
  if c.holds t then c.release else { c with write := c.write.withdraw t }

/-- Wakes the calls at certain stages. -/
def wakeCalls (c : Client) (p : Stage → Bool) : Client :=
  (List.range c.calls.length).foldl (fun c n => if p (c.stage n) then c.wake (.call n) else c) c

/-- Whether a call waits for a reply while its mailbox is decided. -/
def isDecided (c : Client) : Stage → Bool
  | .await w _ => c.correlator.mailbox w.ticket != .vacant
  | _ => false

/-- Wakes the calls that wait for a reply and whose mailboxes are decided. -/
def wakeDecided (c : Client) : Client := c.wakeCalls c.isDecided

/-- A waiter leaves the correlator. -/
def forget (c : Client) (w : Waiter) : Client :=
  { c.record (.left w.id) with correlator := c.correlator.leave w }

/-- A waiter leaves the correlator, and the calls that this decides go on. -/
def leave (c : Client) (w : Waiter) : Client := (c.forget w).wakeDecided

end Client

end DocWire
