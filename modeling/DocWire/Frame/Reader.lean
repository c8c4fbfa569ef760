import DocWire.Frame.Buffer
import DocWire.Stream.Source

/-!
# Reading frames from a stream

A reader takes the next frame off its buffer, and reads from the stream only when the buffered bytes
do not decide the answer. The end of the stream between two frames is the regular end; inside a
frame it is a fault.
-/

namespace DocWire.Frame

open DocWire.Stream

/-- The outcome of asking for the next frame. The stream may have ended between two frames
(`finished`), or be open with nothing more to read (`waiting`). -/
inductive Next where
  | frame (f : Frame)
  | finished
  | failed (e : Failure)
  | waiting
  deriving DecidableEq, Repr, Inhabited

/-- The most bytes that one read takes from the stream. -/
def readSize : Nat := 65536

/-- Gives the next frame of a stream behind the buffered bytes. -/
def Buffer.next (b : Buffer) (s : Source) : Next × Buffer × Source :=
  match b.cut with
  | (.frame f, b') => (.frame f, b', s)
  | (.refused fault, b') => (.failed (.decodeFailed fault), b', s)
  | (.starved, b') =>
    match _hr : s.read readSize with
    | (.bytes bs, s') => (b'.append bs).next s'
    | (.ended, s') =>
      if b'.hasPartial then (.failed (.receiveFailed .endInsideFrame), b', s')
      else (.finished, b', s')
    | (.failed text, s') => (.failed (.receiveFailed (.reported text)), b', s')
    | (.waiting, s') => (.waiting, b', s')
termination_by s.unread
decreasing_by
  obtain ⟨hu, hn⟩ := Source.unread_read _hr
  have := List.length_pos_iff.2 (hn (by decide))
  omega

end DocWire.Frame
