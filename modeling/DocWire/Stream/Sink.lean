import DocWire.Failure

/-!
# The outgoing half of a stream

A sink is the peer as a writer meets it: how many bytes it still takes, how many of them in one
write, and what it does once it has taken them all. Everything it has taken is kept, in order.
-/

namespace DocWire.Stream

/-- What the peer does with a request that it need not grant: grant it, let it wait or fail it. -/
inductive Readiness where
  | ready
  | waits
  | fails (text : String)
  deriving DecidableEq, Repr, Inhabited

/-- What the peer does with bytes beyond those it takes: the write has to wait, is granted for no
byte, or fails. -/
inductive Refusal where
  | waits
  | takesNothing
  | fails (text : String)
  deriving DecidableEq, Repr, Inhabited

/-- The peer as a writer meets it: all bytes taken so far, how many it will still take, if there is
a limit, what happens to bytes beyond them, and the most bytes taken in one write. -/
structure Sink where
  taken : List UInt8
  budget : Option Nat
  beyond : Refusal
  perWrite : Option Nat
  onFlush : Readiness
  onShutdown : Readiness
  shutdownAsked : Bool
  deriving DecidableEq, Repr, Inhabited

/-- A change in how the peer behaves; what is not mentioned stays as it is. -/
structure SinkChange where
  budget : Option (Option Nat)
  beyond : Option Refusal
  perWrite : Option (Option Nat)
  onFlush : Option Readiness
  onShutdown : Option Readiness
  deriving DecidableEq, Repr, Inhabited

/-- How writing a byte string came out: all bytes were taken, or there is a rest, which has to wait,
of which the peer took no byte, or at which the write failed. -/
inductive Written where
  | all
  | waiting (rest : List UInt8)
  | nothing (rest : List UInt8)
  | failed (text : String) (rest : List UInt8)
  deriving DecidableEq, Repr, Inhabited

/-- The bytes that the peer has not taken. -/
def Written.rest : Written → List UInt8
  | .all => []
  | .waiting rest | .nothing rest | .failed _ rest => rest

namespace Sink

/-- A peer that takes everything at once. -/
def eager : Sink := ⟨[], none, .waits, none, .ready, .ready, false⟩

/-- The peer after a change. -/
def change (s : Sink) (c : SinkChange) : Sink :=
  { s with
    budget := c.budget.getD s.budget
    beyond := c.beyond.getD s.beyond
    perWrite := c.perWrite.getD s.perWrite
    onFlush := c.onFlush.getD s.onFlush
    onShutdown := c.onShutdown.getD s.onShutdown }

/-- The number of bytes that one write of `n` bytes moves; none stands for a spent budget. -/
def grant (s : Sink) (n : Nat) : Option Nat :=
  let n := match s.perWrite with
    | some most => min n most
    | none => n
  match s.budget with
  | none => some n
  | some 0 => none
  | some budget => some (min n budget)

/-- The sink after it has taken some bytes. -/
def take (s : Sink) (bs : List UInt8) : Sink :=
  { s with taken := s.taken ++ bs, budget := s.budget.map (· - bs.length) }

/-- Writes bytes until all are taken or the peer stops, in at most `fuel` writes. -/
def writeFor : Nat → Sink → List UInt8 → Written × Sink
  | _, s, [] => (.all, s)
  | 0, s, bs => (.waiting bs, s)
  | fuel + 1, s, bs =>
    match s.grant bs.length with
    | none =>
      match s.beyond with
      | .waits => (.waiting bs, s)
      | .takesNothing => (.nothing bs, s)
      | .fails text => (.failed text bs, s)
    | some 0 => (.nothing bs, s)
    | some n => writeFor fuel (s.take (bs.take n)) (bs.drop n)

/-- Writes bytes until all are taken or the peer stops. Every write that is granted moves a byte, so
their number is at most the number of bytes. -/
def write (s : Sink) (bs : List UInt8) : Written × Sink := writeFor bs.length s bs

/-- Asks for the writing side to be shut down. -/
def askShutdown (s : Sink) : Readiness × Sink := (s.onShutdown, { s with shutdownAsked := true })

theorem exists_taken_writeFor (fuel : Nat) (s : Sink) (bs : List UInt8) :
    ∃ out, (writeFor fuel s bs).2.taken = s.taken ++ out ∧
      out ++ (writeFor fuel s bs).1.rest = bs := by
  induction fuel generalizing s bs with
  | zero => exact ⟨[], by cases bs <;> simp [writeFor, Written.rest]⟩
  | succ fuel ih =>
    cases bs with
    | nil => exact ⟨[], by simp [writeFor, Written.rest]⟩
    | cons b bs =>
      simp only [writeFor]
      split
      · exact ⟨[], by split <;> simp [Written.rest]⟩
      · exact ⟨[], by simp [Written.rest]⟩
      next n _ _ =>
        obtain ⟨out, ht, hr⟩ := ih (s.take ((b :: bs).take n)) ((b :: bs).drop n)
        refine ⟨(b :: bs).take n ++ out, ?_, ?_⟩
        · rw [ht]; simp [take]
        · rw [List.append_assoc, hr, List.take_append_drop]

/-- **A write moves bytes and loses none**: what the peer takes comes off the front. -/
theorem exists_taken_write (s : Sink) (bs : List UInt8) :
    ∃ out, (s.write bs).2.taken = s.taken ++ out ∧ out ++ (s.write bs).1.rest = bs :=
  exists_taken_writeFor bs.length s bs

end Sink

end DocWire.Stream
