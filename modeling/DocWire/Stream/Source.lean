/-!
# The incoming half of a stream

A source holds what the peer has sent and nobody has read yet, in the order in which it was sent:
chunks of bytes, ends and faults. One read gives bytes of one chunk only; what it leaves of the
chunk stays for the next read. A fault is reported once, and reading goes on behind it. An end stays
in front for ever, so what is sent behind it is never read. With nothing in front, a read has to
wait.
-/

namespace DocWire.Stream

/-- One thing that the peer sends; `ending` is the end of the stream. -/
inductive Sent where
  | chunk (bs : List UInt8)
  | ending
  | fault (text : String)
  deriving DecidableEq, Repr, Inhabited

/-- The bytes in it. -/
def Sent.bytes : Sent → List UInt8
  | chunk bs => bs
  | ending => []
  | fault _ => []

/-- What has been sent and not been read, in the order in which it was sent. -/
structure Source where
  sent : List Sent
  deriving DecidableEq, Repr, Inhabited

/-- The outcome of one read; `waiting` if nothing is there yet. -/
inductive Arrival where
  | bytes (bs : List UInt8)
  | ended
  | failed (text : String)
  | waiting
  deriving DecidableEq, Repr, Inhabited

namespace Source

/-- A stream on which nothing has been sent. -/
def quiet : Source := ⟨[]⟩

/-- The bytes that nobody has read. -/
def bytes (s : Source) : List UInt8 := s.sent.flatMap Sent.bytes

/-- The number of bytes that nobody has read. -/
def unread (s : Source) : Nat := s.bytes.length

/-- The stream after the peer has sent more. -/
def feed (s : Source) (more : List Sent) : Source := ⟨s.sent ++ more⟩

/-- What one read of at most `limit` bytes finds at the front, and what stays behind it. -/
def readFront (limit : Nat) : List Sent → Arrival × List Sent
  | [] => (.waiting, [])
  | .chunk [] :: rest => readFront limit rest
  | .chunk (b :: bs) :: rest =>
    (.bytes ((b :: bs).take limit), .chunk ((b :: bs).drop limit) :: rest)
  | .ending :: rest => (.ended, .ending :: rest)
  | .fault text :: rest => (.failed text, rest)

/-- One read of at most `limit` bytes. -/
def read (s : Source) (limit : Nat) : Arrival × Source :=
  let (arrival, sent) := readFront limit s.sent
  (arrival, ⟨sent⟩)

theorem bytes_readFront {limit : Nat} {sent sent' : List Sent} {bs : List UInt8}
    (hr : readFront limit sent = (.bytes bs, sent')) :
    bs ++ sent'.flatMap Sent.bytes = sent.flatMap Sent.bytes ∧ (0 < limit → bs ≠ []) := by
  induction sent with
  | nil => simp [readFront] at hr
  | cons x rest ih =>
    cases x with
    | chunk c =>
      cases c with
      | nil => simpa [Sent.bytes] using ih (by simpa [readFront] using hr)
      | cons b c =>
        simp only [readFront, Prod.mk.injEq, Arrival.bytes.injEq] at hr
        obtain ⟨rfl, rfl⟩ := hr
        refine ⟨?_, fun h => ?_⟩
        · rw [List.flatMap_cons, List.flatMap_cons, Sent.bytes, Sent.bytes, ← List.append_assoc,
            List.take_append_drop]
        · cases limit with
          | zero => omega
          | succ n => simp
    | ending => simp [readFront] at hr
    | fault text => simp [readFront] at hr

/-- **A read moves bytes and loses none**, and gives at least one if it may. -/
theorem bytes_read {s s' : Source} {limit : Nat} {bs : List UInt8}
    (hr : s.read limit = (.bytes bs, s')) :
    bs ++ s'.bytes = s.bytes ∧ (0 < limit → bs ≠ []) := by
  simp only [read, Prod.mk.injEq] at hr
  obtain ⟨ha, rfl⟩ := hr
  exact bytes_readFront (Prod.ext ha rfl)

theorem unread_read {s s' : Source} {limit : Nat} {bs : List UInt8}
    (hr : s.read limit = (.bytes bs, s')) :
    s'.unread + bs.length = s.unread ∧ (0 < limit → bs ≠ []) := by
  obtain ⟨hb, hn⟩ := bytes_read hr
  refine ⟨?_, hn⟩
  simp only [unread, ← hb, List.length_append]
  omega

end Source

end DocWire.Stream
