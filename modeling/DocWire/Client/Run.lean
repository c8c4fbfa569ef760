import DocWire.Client.Reading
import DocWire.Client.Sending

/-!
# Running a client

`perform` is one thing that happens to a client from outside: a call is started or given up, the
peer sends something or behaves differently, time passes, or the client is let go. After it every
task that can go on does so, in turn, until all of them wait.
-/

namespace DocWire

open DocWire.Correlator (Waiter)
open DocWire.Stream (Sent SinkChange)

/-- Whether a job closes a subscription. -/
def Job.unsubscribes : Job → Bool
  | .unsubscribe _ => true
  | _ => false

namespace Client

/-- Lets go of the stream before there is a connection. -/
def dropStream (c : Client) : Client :=
  { c with reader := .ended, write := { c.write with half := .gone } }

/-- The handshake has succeeded: the connection and its reader come into being. -/
def accept (c : Client) (session : Handshake.Session) : Client :=
  { c with
    session := some session
    life := .connected
    held := true
    joinable := true
    write := { c.write with half := .held }
    reader := .reading (Frame.Buffer.empty c.config.frameLimit) }

/-- Takes the handshake as far as the peer lets it. -/
def runHandshake (c : Client) (n : Nat) (e : Handshake.Exchange) (due : Nat) : Client :=
  match e.run c.source c.peer with
  | (.done (.ok session), source, peer) =>
    (({ c with source := source, peer := peer }.accept session).wake .reader).finish n
      (.ok (.connected session))
  | (.done (.error e), source, peer) =>
    { c with source := source, peer := peer }.dropStream.finish n (.error e)
  | (.stopped e, source, peer) =>
    let c := { c with source := source, peer := peer }
    if due ≤ c.now then c.dropStream.finish n (.error (.timeout c.config.connectTimeout))
    else (c.setTimer n due).setStage n (.handshake e due)

/-- The bytes that the connection opens with, if the settings allow one. -/
def opening (c : Client) : Except Failure (List UInt8) := c.config.opening

/-- Starts the handshake with its first bytes, if there are any. -/
def shakeHands (c : Client) (n : Nat) : Except Failure (List UInt8) → Client
  | .error e => c.dropStream.finish n (.error e)
  | .ok bytes =>
    let due := c.now + c.config.connectTimeout.toMillis
    ({ c with write := { c.write with half := .unsplit } }.setStage n
      (.handshake (.writing bytes) due)).runHandshake n (.writing bytes) due

/-- Starts to connect. -/
def startConnect (c : Client) (n : Nat) : Client := c.shakeHands n c.opening

/-- Starts an operation, unless it is turned down. -/
def startOperation (c : Client) (n : Nat) (op : Operation) : Client :=
  match op.refusal? with
  | some e => c.finish n (.error e)
  | none => if c.isConnected then c.goForWritePath n else c.finish n (.error .connectionClosed)

/-- Closes a subscription, and tells the peer if there is still a connection. -/
def startUnsubscribe (c : Client) (n : Nat) (id : String) : Client :=
  if c.isAlive then
    let c := { c.record (.unsubscribed id) with routes := (c.routes.unsubscribe id).2 }
    if c.isConnected then c.goForWritePath n else c.finish n (.ok .done)
  else c.finish n (.ok .done)

/-- Lets a call go on. -/
def runCall (c : Client) (n : Nat) : Client :=
  match c.stage n with
  | .fresh =>
    match c.job n with
    | .connect => if c.write.half = .unused then c.startConnect n else c.finish n (.ok .nothing)
    | .operation op => c.startOperation n op
    | .unsubscribe (some id) => c.startUnsubscribe n id
    | .unsubscribe none => c.finish n (.ok .nothing)
    | .disconnect => c.close (.call n) .join
  | .handshake e due => c.runHandshake n e due
  | .lock => if c.holds (.call n) then c.useWritePath n else c
  | .send s => c.writeOn n s
  | .await w due => c.awaitReply n w due
  | .closeLock k => if c.holds (.call n) then c.takeHalf (.call n) k else c
  | .closeShutdown k => c.shutHalf (.call n) k
  | .join => if c.reader = .ended then c.finish n (.ok .done) else c
  | .done _ | .dropped => c

/-- Lets a task go on. -/
def run (c : Client) : Task → Client
  | .reader => c.runReader
  | .call n => c.runCall n

/-- A task takes its turn. -/
def turn (c : Client) (t : Task) : Client := { c with ready := c.ready.erase t }.run t

/-! ### Until all tasks wait -/

/-- How far calls are from their ends, all together. -/
def load : List Call → Nat
  | [] => 0
  | call :: calls => call.stage.rank + load calls

/-- How far the calls and the reader are from their ends, all together, and how many replies may
still be routed to waiters. -/
def potential (c : Client) : Nat := load c.calls + c.reader.rank + c.correlator.size

/-- A bound on the number of turns until all tasks wait. A turn that gets anywhere brings a call or
the reader nearer to its end, or takes a slot out of the registry, and wakes each task at most
once. -/
def work (c : Client) : Nat := c.ready.length + (c.calls.length + 2) * c.potential

/-- Lets the tasks that can go on do so, in at most `fuel` turns. -/
def settleFor : (fuel : Nat) → Client → Client
  | 0, c => c
  | fuel + 1, c =>
    match c.ready with
    | [] => c
    | t :: _ => settleFor fuel (c.turn t)

/-- Lets the tasks that can go on do so until all of them wait. -/
def settle (c : Client) : Client := c.settleFor c.work

/-! ### What happens from outside -/

/-- Something that happens to a client: a call is started, or given up by its caller; the peer sends
more, or behaves differently; time passes. In the end the client is let go. Calls that close
subscriptions do not need it: they can go on when it is gone (`part`), and then it is they who hold
the connection, which goes with the last of them (`drop`). Or all calls are given up first, and then
the client (`drop`). -/
inductive Action where
  | start (job : Job)
  | cancel (n : Nat)
  | feed (more : List Sent)
  | change (c : SinkChange)
  | advance (millis : Nat)
  | part
  | drop
  deriving Inhabited

/-- Wakes the tasks that wait for the peer to take something. -/
def wakeWriters (c : Client) : Client :=
  let c := c.wakeCalls Stage.waitsForPeer
  if c.reader = .closeShutdown then c.wake .reader else c

/-- Wakes the tasks that read. -/
def wakeReaders (c : Client) : Client :=
  let c := c.wakeCalls Stage.inHandshake
  match c.reader with
  | .reading _ => c.wake .reader
  | _ => c

/-- Wakes the calls whose time is up, in the order of their deadlines. -/
def fireTimers (c : Client) : Client :=
  let due := (c.timers.filter (·.due ≤ c.now)).mergeSort fun a b => a.due ≤ b.due
  let c := { c with timers := c.timers.filter fun t => c.now < t.due }
  due.foldl (fun c t => c.wake (.call t.call)) c

/-- Gives a call up: all that it holds is let go. -/
def cancelCall (c : Client) (n : Nat) : Client :=
  let dropped := (c.clearTimer n).setStage n .dropped
  match c.stage n with
  | .handshake _ _ => dropped.dropStream
  | .lock | .closeLock _ => dropped.withdraw (.call n)
  | .send s => (dropped.leaveIfAny s.waiter).leaveWritePath
  | .await w _ => dropped.leave w
  | .closeShutdown _ => { dropped with write := { dropped.write with half := .gone } }
  | .fresh | .join => dropped
  | .done _ | .dropped => c

/-- Lets go of the client while calls that close subscriptions hold the connection: the reader has to
stop. As long as there are other calls, nobody can do so. -/
def takeLeave (c : Client) : Client :=
  if c.held && c.calls.all fun call => !call.stage.isOpen || call.job.unsubscribes then c.askStop
  else c

/-- Lets go of the client. Unless the reader is closing the connection, it goes at once. -/
def letGo (c : Client) : Client :=
  if c.held then
    let c := { c with held := false }.askStop
    if c.isAlive then c else c.dropHalf
  else c

/-- Does what happens, without what follows from it. -/
def act (c : Client) : Action → Client
  | .start job =>
    { c with calls := c.calls ++ [Call.mk job .fresh] }.wake (.call c.calls.length)
  | .cancel n => c.cancelCall n
  | .feed more => { c with source := c.source.feed more }.wakeReaders
  | .change d => { c with peer := c.peer.change d }.wakeWriters
  | .advance millis => { c with now := c.now + millis }.fireTimers
  | .part => c.takeLeave
  | .drop => ((List.range c.calls.length).foldl cancelCall c).letGo

/-- Does what happens, and lets all tasks go on until they wait. -/
def perform (c : Client) (a : Action) : Client := (c.act a).settle

/-- The client after a series of things that happen to it. -/
def performAll (c : Client) (as : List Action) : Client := as.foldl perform c

end Client

end DocWire
