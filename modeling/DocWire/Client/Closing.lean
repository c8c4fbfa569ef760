import DocWire.Client.State

/-!
# Closing the connection

Whoever finds the connection open begins to close it; anyone after that finds it closing. Closing
fails all requests under way and drops all routes at once, asks the reader to stop, and then needs
the write path to shut the writing half of the stream down. Only after that the connection is
closed.
-/

namespace DocWire.Client

/-- The reader has ended. A connection that nobody holds any more goes with it. -/
def endReader (c : Client) : Client :=
  let c := { c with reader := .ended }
  (if c.held then c else c.dropHalf).wakeCalls Stage.joins

/-- Waits for the end of the reader, if no one else does. -/
def joinReader (c : Client) (n : Nat) : Client :=
  if c.joinable then
    let c := { c with joinable := false }
    if c.reader = .ended then c.finish n (.ok .done) else c.setStage n .join
  else c.finish n (.ok .done)

/-- Goes on after the connection has been closed. -/
def afterClose (c : Client) (t : Task) (k : AfterClose) : Client :=
  match t with
  | .reader => c.endReader
  | .call n =>
    match k with
    | .finish r => c.finish n r
    | .join => c.joinReader n

/-- Shuts the writing half of the stream down, as a task that has it, or waits until that is
possible. -/
def shutHalf (c : Client) (t : Task) (k : AfterClose) : Client :=
  match c.peer.askShutdown with
  | (.waits, peer) => { c with peer := peer }
  | (_, peer) =>
    { c with
      peer := peer
      write := { c.write with half := .gone }
      life := .closed }.afterClose t k

/-- Puts a task into the stage of shutting the writing half down. -/
def toShutdown (c : Client) (k : AfterClose) : Task → Client
  | .reader => { c with reader := .closeShutdown }
  | .call n => c.setStage n (.closeShutdown k)

/-- Takes the writing half out of the write path, as its holder, and shuts it down. -/
def takeHalf (c : Client) (t : Task) (k : AfterClose) : Client :=
  if c.write.half = .held then
    ({ c with write := { c.write with half := .leaving } }.release.toShutdown k t).shutHalf t k
  else { c.release with life := .closed }.afterClose t k

/-- Puts a task into the stage of going for the write path to shut it down. -/
def toCloseLock (c : Client) (k : AfterClose) : Task → Client
  | .reader => { c with reader := .closeLock }
  | .call n => c.setStage n (.closeLock k)

/-- Begins to close: all requests fail and all routes are gone. -/
def breakOff (c : Client) : Client :=
  { c.record .closing with
    life := .closing
    correlator := c.correlator.failAll.2
    routes := c.routes.clear.2 }

/-- Goes for the write path, and shuts it down if it is there for the task. -/
def lineUpToClose (c : Client) (t : Task) (k : AfterClose) : Client :=
  let c := { c with write := c.write.acquire t }
  if c.holds t then c.takeHalf t k else c

/-- Closes the connection, unless someone else has begun to. -/
def close (c : Client) (t : Task) (k : AfterClose) : Client :=
  if c.life = .connected then (c.toCloseLock k t).breakOff.wakeDecided.askStop.lineUpToClose t k
  else c.afterClose t k

end DocWire.Client
