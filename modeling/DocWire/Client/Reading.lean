import DocWire.Client.Closing

/-!
# Routing what comes in

The reader takes one frame after the other. A push goes to the callback that its subscription is
routed to. Everything else is a reply and goes to the waiter of its id; the reply to a subscribe
request that has not failed opens the route first, so that a push right behind it finds it. A frame
that cannot be understood is passed over; a fault of the framing or of the stream, and its end,
close the connection.
-/

namespace DocWire.Client

open DocWire.Correlator (Slot)

/-- Gives a push to the callback of its subscription. -/
def dispatch (c : Client) (note : ChangeNotification) : Client :=
  match c.routes.get? note.id with
  | some target => c.record (.notified target.call note.event)
  | none => c

/-- Opens the route of a subscribe request whose reply is no failure; tells whether it was opened. -/
def openRoute (c : Client) (id : String) (isError : Bool) (slot : Slot Target) :
    Bool × Routes Target :=
  match slot.subscription with
  | some target => if isError then (false, c.routes) else c.routes.subscribe id target
  | none => (false, c.routes)

/-- Puts a reply into the mailbox of a slot that has been taken out. A route that was opened for it
is closed again if the waiter is gone. -/
def handOver (c : Client) (id : String) (isError : Bool) (reply : Reply) (slot : Slot Target) :
    Client :=
  let (routed, routes) := c.openRoute id isError slot
  let (found, correlator) := c.correlator.fulfill slot reply
  { c with
    correlator := correlator
    routes := if routed && !found then (routes.unsubscribe id).2 else routes }

/-- Gives a reply to the waiter of its id. -/
def resolve (c : Client) (id : String) (isError : Bool) (reply : Reply) : Client :=
  match c.correlator.take id with
  | (none, _) => c
  | (some slot, correlator) =>
    ({ c with correlator := correlator }.handOver id isError reply slot).wakeDecided

/-- Routes the payload of a frame. -/
def routePayload (c : Client) (encoding : Encoding) (payload : List UInt8) : Client :=
  match encoding.decode? Envelope.read? payload with
  | none => c
  | some envelope =>
    match envelope.id with
    | none => c
    | some id =>
      if envelope.isChange then
        match encoding.decode? ChangeNotification.read? payload with
        | some note => c.dispatch note
        | none => c
      else c.resolve id envelope.isError ⟨encoding, payload⟩

/-- Routes a frame. -/
def route (c : Client) (f : Frame) : Client :=
  let c := c.record (.routed f)
  match f.header.encoding? with
  | none => c
  | some encoding => c.routePayload encoding f.payload

/-- Closes the connection from the reader. -/
def closeReader (c : Client) : Client := c.close .reader (.finish (.ok .done))

/-- Reads and routes frames until there is none, at most `fuel` of them. -/
def readFrames : (fuel : Nat) → Client → Frame.Buffer → Client
  | 0, c, b => { c with reader := .reading b }
  | fuel + 1, c, b =>
    match b.next c.source with
    | (.frame f, b, source) =>
      if c.isAlive then readFrames fuel ({ c with source := source }.route f) b
      else { c with source := source }.endReader
    | (.waiting, b, source) => { c with source := source, reader := .reading b }
    | (_, _, source) =>
      if c.isAlive then { c with source := source }.closeReader
      else { c with source := source }.endReader

/-- Lets the reader go on. Every frame takes a byte of the stream, or the header that was taken
before. -/
def runReader (c : Client) : Client :=
  match c.reader with
  | .reading b =>
    if c.stopAsked then
      let c := { c with stopAsked := false }
      if c.isAlive then c.closeReader else c.endReader
    else c.readFrames (c.source.unread + b.weight + 1) b
  | .closeLock => if c.holds .reader then c.takeHalf .reader (.finish (.ok .done)) else c
  | .closeShutdown => c.shutHalf .reader (.finish (.ok .done))
  | .absent | .ended => c

end DocWire.Client
