import DocWire.Handshake
import DocWire.Stream.Sink
import DocWire.Stream.Source

/-!
# Carrying out the handshake

The request is written and flushed, then exactly the nineteen bytes of the answer are read, so that
the frames behind them stay on the stream. An exchange that the peer holds up can be taken up again
where it stopped; `negotiate` gives it up instead, which is what happens when nothing more comes
before the time is up.
-/

namespace DocWire.Handshake

open DocWire.Stream

/-- How far the handshake has come. -/
inductive Exchange where
  | writing (rest : List UInt8)
  | flushing
  | reading (got : List UInt8)
  deriving DecidableEq, Repr, Inhabited

/-- Where the handshake stands after it has gone as far as it could. -/
inductive Progress where
  | stopped (e : Exchange)
  | done (result : Except Failure Session)

/-- The outcome of a complete answer. -/
def conclude (got : List UInt8) : Except Failure Session :=
  match Answer.decode? got with
  | some answer => answer.session
  | none => .error (.receiveFailed .endInsideHandshake)

/-- Reads on until the answer is complete. -/
def readAnswer (got : List UInt8) (s : Source) : Progress × Source :=
  if _hg : got.length < Answer.size then
    match _hr : s.read (Answer.size - got.length) with
    | (.bytes bs, s') => readAnswer (got ++ bs) s'
    | (.ended, s') => (.done (.error (.receiveFailed .endInsideHandshake)), s')
    | (.failed text, s') => (.done (.error (.receiveFailed (.reported text))), s')
    | (.waiting, s') => (.stopped (.reading got), s')
  else (.done (conclude got), s)
termination_by s.unread
decreasing_by
  obtain ⟨hu, hn⟩ := Source.unread_read _hr
  have := List.length_pos_iff.2 (hn (by omega))
  omega

/-- Flushes what has been written, then reads the answer. -/
def flushRequest (s : Source) (w : Sink) : Progress × Source × Sink :=
  match w.onFlush with
  | .ready =>
    let (p, s) := readAnswer [] s
    (p, s, w)
  | .waits => (.stopped .flushing, s, w)
  | .fails text => (.done (.error (.sendFailed (.reported text))), s, w)

/-- Takes an exchange as far as the peer lets it. -/
def Exchange.run (e : Exchange) (s : Source) (w : Sink) : Progress × Source × Sink :=
  match e with
  | .writing rest =>
    match w.write rest with
    | (.all, w) => flushRequest s w
    | (.waiting rest, w) => (.stopped (.writing rest), s, w)
    | (.nothing _, w) => (.done (.error (.sendFailed .handshakeNotAccepted)), s, w)
    | (.failed text _, w) => (.done (.error (.sendFailed (.reported text))), s, w)
  | .flushing => flushRequest s w
  | .reading got =>
    let (p, s) := readAnswer got s
    (p, s, w)

/-- The whole handshake on a stream to which nothing is added while it runs. -/
def negotiate (r : Request) (bound : Span) (s : Source) (w : Sink) :
    Except Failure Session × Source × Sink :=
  match r.encode? with
  | .error e => (.error e, s, w)
  | .ok bytes =>
    match (Exchange.writing bytes).run s w with
    | (.done result, s, w) => (result, s, w)
    | (.stopped _, s, w) => (.error (.timeout bound), s, w)

end DocWire.Handshake
