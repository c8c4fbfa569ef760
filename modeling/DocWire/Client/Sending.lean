import DocWire.Client.Closing

/-!
# Sending requests

A request takes the write path, gets the next id, is registered under it, and only then is written,
so that no reply can come before its waiter. The write path is left as soon as the frame is out or
has failed; the wait for the reply starts after that. A failure of the stream closes the connection
before anyone else gets to write.
-/

namespace DocWire.Client

open DocWire.Correlator (Waiter)

/-- What a failure to send makes of a call: closing a subscription never fails. -/
def failedOutcome (job : Job) (e : Failure) : Except Failure Outcome :=
  match job with
  | .unsubscribe _ => .ok .done
  | _ => .error e

/-- The job of a call. -/
def job (c : Client) (n : Nat) : Job := (c.calls[n]?.map (·.job)).getD .disconnect

/-- Closes the route of a subscribe request whose reply is turned down. -/
def reject (c : Client) (id : String) : Client :=
  { c.record (.rejected id) with routes := (c.routes.unsubscribe id).2 }

/-- A waiter leaves, if there is one. -/
def leaveIfAny (c : Client) : Option Waiter → Client
  | some w => c.leave w
  | none => c

/-- Gives up sending, as the holder of the write path. -/
def failSending (c : Client) (n : Nat) (waiter : Option Waiter) (e : Failure) : Client :=
  let c := (((c.record (.unsent n e)).clearTimer n).leaveWritePath).leaveIfAny waiter
  let r := failedOutcome (c.job n) e
  if e.endsConnection then c.close (.call n) (.finish r) else c.finish n r

/-- What a reply makes of a call. -/
def replyOutcome (job : Job) (id : String) (reply : Reply) : Except Failure Outcome :=
  match job with
  | .operation op => (op.answer id reply).map .result
  | _ => .ok .nothing

/-- Whether a call turns down the reply that has opened its subscription. -/
def turnsDown (job : Job) (id : String) (reply : Reply) : Bool :=
  match job with
  | .operation op => op.isSubscribe && !(op.answer id reply).isOk
  | _ => false

/-- What a call does with the end of its wait. -/
def conclude (c : Client) (n : Nat) (w : Waiter) (r : Except Failure Reply) : Client :=
  match r with
  | .error e => (c.forget w).setStage n (.done (.error e))
  | .ok reply =>
    let answered := (c.forget w).record (.answered n reply)
    (if turnsDown (c.job n) w.id reply then answered.reject w.id else answered).setStage n
      (.done (replyOutcome (c.job n) w.id reply))

/-- Ends a call whose wait for a reply is over. -/
def endWait (c : Client) (n : Nat) (w : Waiter) (r : Except Failure Reply) : Client :=
  ((c.clearTimer n).conclude n w r).wakeDecided

/-- Goes on with the wait for a reply until the deadline. -/
def awaitReply (c : Client) (n : Nat) (w : Waiter) (due : Nat) : Client :=
  match c.correlator.outcome? w (due ≤ c.now) c.config.requestTimeout with
  | some r => c.endWait n w r
  | none => c.setTimer n due

/-- Goes on after a frame is out. -/
def afterSending (c : Client) (n : Nat) (waiter : Option Waiter) : Client :=
  let c := ((c.record (.sent n c.now)).clearTimer n).leaveWritePath
  match waiter with
  | some w => (c.setStage n (.await w c.requestDue)).awaitReply n w c.requestDue
  | none => c.finish n (.ok .done)

/-- Waits for the peer to take more, unless the time is up. -/
def holdSending (c : Client) (n : Nat) (s : Sending) : Client :=
  if s.due ≤ c.now then c.failSending n s.waiter (.sendFailed .frameNotWrittenInTime)
  else c.setTimer n s.due

/-- Goes on with the rest of a frame: the write path is torn if some bytes of the frame have been
taken and the rest has not. -/
def sendRest (c : Client) (n : Nat) (s : Sending) : Client :=
  { c with write := { c.write with torn := !s.rest.isEmpty && s.rest.length < s.size } }.setStage n
    (.send s)

/-- Writes what is left of a frame and flushes it, as far as the peer lets it. -/
def writeOn (c : Client) (n : Nat) (s : Sending) : Client :=
  let (written, peer) := c.peer.write s.rest
  let s := { s with rest := written.rest }
  let c := { c with peer := peer }.sendRest n s
  match written with
  | .all =>
    match peer.onFlush with
    | .ready => c.afterSending n s.waiter
    | .waits => c.holdSending n s
    | .fails text => c.failSending n s.waiter (.sendFailed (.reported text))
  | .waiting _ => c.holdSending n s
  | .nothing _ => c.failSending n s.waiter (.sendFailed .frameNotAccepted)
  | .failed text _ => c.failSending n s.waiter (.sendFailed (.reported text))

/-- The frame of a message within the limit of the session. -/
def frameOf? (c : Client) (m : ClientMessage) : Except Failure (List UInt8) :=
  let payload := c.encoding.print m.toValue
  match Header.ofPayload? .request c.encoding payload.length with
  | .error e => .error e
  | .ok h =>
    if c.config.frameLimit < h.length then
      .error (.invalidArgument
        (.frameAboveLimit h.length.toNat c.config.frameLimit.toNat))
    else .ok (h.encode ++ payload)

/-- Sends a message, as the holder of the write path. -/
def sendMessage (c : Client) (n : Nat) (waiter : Option Waiter) (m : ClientMessage) : Client :=
  let c := c.record (.sending n m)
  match c.frameOf? m with
  | .error e => c.failSending n waiter e
  | .ok frame =>
    if c.write.half = .held then
      let s : Sending := ⟨frame, frame.length, waiter, c.requestDue⟩
      (c.setStage n (.send s)).writeOn n s
    else c.failSending n waiter .connectionClosed

/-- Where the events of an operation go, if it opens a subscription. -/
def targetOf (n : Nat) : Operation → Option Target
  | .subscribe _ fails => some ⟨n, fails⟩
  | _ => none

/-- The id of the next request. -/
def nextId (c : Client) : String := toString c.write.nextId

/-- Uses up the id of the next request. -/
def useId (c : Client) : Client :=
  { c with write := { c.write with nextId := c.write.nextId + 1 } }

/-- Makes a request, as the holder of the write path: takes an id, registers it, and sends. -/
def request (c : Client) (n : Nat) (op : Operation) : Client :=
  match c.correlator.register c.nextId (targetOf n op) with
  | .error e => c.useId.leaveWritePath.finish n (.error e)
  | .ok (w, correlator) =>
    ({ c.useId with correlator := correlator }.record (.registered n w.id)).sendMessage n (some w)
      (op.message w.id)

/-- What a call does once it has the write path. -/
def useWritePath (c : Client) (n : Nat) : Client :=
  match c.job n with
  | .operation op => c.request n op
  | .unsubscribe (some id) => c.sendMessage n none (.unsubscribe id)
  | _ => c.leaveWritePath.finish n (.ok .nothing)

/-- Goes for the write path to send something. -/
def goForWritePath (c : Client) (n : Nat) : Client :=
  let c := { c with write := c.write.acquire (.call n) }.setStage n .lock
  if c.holds (.call n) then c.useWritePath n else c

end DocWire.Client
