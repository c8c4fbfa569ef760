import DocWire.Proofs.Frame.Grammar
import DocWire.Stream.Sink

/-!
# Writing a frame

The sink is offered what is left of the header and what is left of the payload, as two pieces of one
write; it takes some bytes, and is offered the rest. Once it has taken everything it is asked to
flush. A frame counts as torn as long as some of its bytes are out and others are not. The writing
stops for good when a write or the flush fails, or when the sink takes no byte at all; it is left
where it stands whenever the sink has to wait, and may be given up there.

What the sink answers is a list here (`Answer`), and any list that fits the questions (`Fitting`) is
allowed. `Came` says where such a list leads; one more answer keeps it (`Came.answer`), and so does a
run (`Came.run`). A `Stream.Sink` is a sink that answers in a way of its own (`run_answersFor`).
-/

namespace DocWire.Frame

open DocWire.Stream (Sink Written)

/-- The number of bytes of a frame. -/
def size (f : Frame) : Nat := Header.size + f.payload.length

/-- What is left of a frame behind its first bytes, as the pieces of one write: the rest of the
header and the rest of the payload, each if there is one. -/
def piecesFrom (f : Frame) (skip : Nat) : List (List UInt8) :=
  (if skip < Header.size then [f.header.encode.drop skip] else []) ++
    if skip - Header.size < f.payload.length then [f.payload.drop (skip - Header.size)] else []

/-- What a sink answers when it is offered bytes, or is asked to flush; after `waits` the question
has to be asked again. -/
inductive Answer where
  | takes (count : Nat)
  | flushes
  | waits
  | fails (text : String)
  deriving DecidableEq, Repr

namespace Answer

/-- The number of bytes that an answer moves. -/
def count : Answer → Nat
  | takes n => n
  | _ => 0

/-- Whether the sink accepts some of the bytes it is offered. -/
def accepts (a : Answer) : Bool := 0 < a.count

/-- Whether the question need not be asked again. -/
def settles (a : Answer) : Bool := a != .waits

/-- The number of bytes that some answers move. -/
def total : List Answer → Nat
  | [] => 0
  | a :: as => a.count + total as

theorem total_append (as : List Answer) (a : Answer) : total (as ++ [a]) = total as + a.count := by
  induction as with
  | nil => exact Nat.add_comm _ _
  | cons b as ih =>
    rw [List.cons_append, total, total, ih, Nat.add_assoc]

end Answer

/-- The writing of a frame: how many bytes the sink has taken, whether the frame counts as half
written (`torn`), and how the writing has ended, if it has. -/
structure Writing where
  frame : Frame
  taken : Nat
  torn : Bool
  outcome : Option (Except StreamFault Unit)

namespace Writing

/-- A frame that is yet to be written. -/
def start (f : Frame) : Writing := ⟨f, 0, false, none⟩

/-- The pieces that the sink is offered next. -/
def offer (w : Writing) : List (List UInt8) := w.frame.piecesFrom w.taken

/-- The bytes that the sink is offered next. -/
def rest (w : Writing) : List UInt8 := w.offer.flatten

/-- The writing after it has ended. -/
def stop (w : Writing) (r : Except StreamFault Unit) : Writing := { w with outcome := some r }

/-- The writing after the sink has taken some bytes. -/
def advance (w : Writing) (n : Nat) : Writing :=
  { w with taken := w.taken + n, torn := w.taken + n < w.frame.size }

/-- The writing after an answer of the sink. -/
def answer (w : Writing) : Answer → Writing
  | .takes 0 => w.stop (.error .frameNotAccepted)
  | .takes n => w.advance n
  | .flushes => w.stop (.ok ())
  | .waits => w
  | .fails text => w.stop (.error (.reported text))

/-- The writing after some answers of the sink. -/
def run (w : Writing) (as : List Answer) : Writing := as.foldl answer w

/-- Whether an answer fits the question that is open: the sink takes no more than it is offered, and
is asked to flush once it has taken everything. -/
def Fits (w : Writing) (a : Answer) : Prop :=
  w.outcome = none ∧
    match a with
    | .takes n => w.taken < w.frame.size ∧ n ≤ w.rest.length
    | .flushes => w.frame.size ≤ w.taken
    | _ => True

instance (w : Writing) (a : Answer) : Decidable (w.Fits a) :=
  match a with
  | .takes n => inferInstanceAs
      (Decidable (w.outcome = none ∧ w.taken < w.frame.size ∧ n ≤ w.rest.length))
  | .flushes => inferInstanceAs (Decidable (w.outcome = none ∧ w.frame.size ≤ w.taken))
  | .waits => inferInstanceAs (Decidable (w.outcome = none ∧ True))
  | .fails _ => inferInstanceAs (Decidable (w.outcome = none ∧ True))

/-- Whether every answer fits the question that is open when it comes. -/
def Fitting : Writing → List Answer → Prop
  | _, [] => True
  | w, a :: as => w.Fits a ∧ (w.answer a).Fitting as

instance decidableFitting : (w : Writing) → (as : List Answer) → Decidable (w.Fitting as)
  | _, [] => inferInstanceAs (Decidable True)
  | w, a :: as =>
    have := decidableFitting (w.answer a) as
    inferInstanceAs (Decidable (w.Fits a ∧ (w.answer a).Fitting as))

variable {w : Writing} {f : Frame} {a : Answer} {as bs : List Answer}

theorem run_append (w : Writing) (as bs : List Answer) : w.run (as ++ bs) = (w.run as).run bs :=
  List.foldl_append

theorem fitting_append : w.Fitting (as ++ bs) ↔ w.Fitting as ∧ (w.run as).Fitting bs := by
  induction as generalizing w with
  | nil => exact (and_iff_right trivial).symm
  | cons a as ih =>
    change w.Fits a ∧ (w.answer a).Fitting (as ++ bs) ↔
      (w.Fits a ∧ (w.answer a).Fitting as) ∧ ((w.answer a).run as).Fitting bs
    rw [ih, and_assoc]

end Writing

/-! ### The pieces of an offer -/

/-- **The pieces of an offer are the rest of the frame.** -/
theorem flatten_piecesFrom (f : Frame) (skip : Nat) :
    (f.piecesFrom skip).flatten = f.toBytes.drop skip := by
  have hh : (if skip < Header.size then [f.header.encode.drop skip] else []).flatten =
      f.header.encode.drop skip := by
    split
    · simp
    next h =>
      rw [List.drop_eq_nil_of_le (by rw [Header.length_encode]; omega)]
      rfl
  have hp : (if skip - Header.size < f.payload.length then [f.payload.drop (skip - Header.size)]
      else []).flatten = f.payload.drop (skip - Header.size) := by
    split
    · simp
    next h =>
      rw [List.drop_eq_nil_of_le (by omega)]
      rfl
  rw [piecesFrom, List.flatten_append, hh, hp, toBytes, List.drop_append, Header.length_encode]

theorem ne_nil_of_mem_piecesFrom {f : Frame} {skip : Nat} {piece : List UInt8}
    (h : piece ∈ f.piecesFrom skip) : piece ≠ [] := by
  refine List.ne_nil_of_length_pos ?_
  rcases List.mem_append.1 h with h | h
  · by_cases hs : skip < Header.size
    · rw [if_pos hs, List.mem_singleton] at h
      rw [h, List.length_drop, Header.length_encode]
      omega
    · rw [if_neg hs] at h
      exact absurd h List.not_mem_nil
  · by_cases hs : skip - Header.size < f.payload.length
    · rw [if_pos hs, List.mem_singleton] at h
      rw [h, List.length_drop]
      omega
    · rw [if_neg hs] at h
      exact absurd h List.not_mem_nil

namespace Writing

variable {w : Writing} {f : Frame} {a : Answer} {as bs : List Answer}

theorem rest_eq (w : Writing) : w.rest = w.frame.toBytes.drop w.taken := flatten_piecesFrom _ _

theorem length_rest (w : Writing) : w.rest.length = w.frame.size - w.taken := by
  rw [rest_eq, List.length_drop, length_toBytes]
  rfl

theorem offer_ne_nil (h : w.taken < w.frame.size) : w.offer ≠ [] := by
  intro ho
  have hl := w.length_rest
  rw [rest, ho] at hl
  simp at hl
  omega

/-! ### What one answer does -/

/-- Where the writing of a frame has come by some answers of the sink. Every accepting call moves a
byte, and a call that settles its question without moving one ends the writing. -/
structure Came (f : Frame) (as : List Answer) (w : Writing) : Prop where
  frame : w.frame = f
  taken : w.taken = Answer.total as
  within : w.taken ≤ f.size
  torn : w.torn = true ↔ 0 < w.taken ∧ w.taken < f.size
  calls : as.countP Answer.accepts ≤ w.taken
  settled : as.countP Answer.settles = as.countP Answer.accepts + if w.outcome.isSome then 1 else 0
  returned : w.outcome = some (.ok ()) ↔ w.taken = f.size ∧ .flushes ∈ as
  flushed : w.outcome = none → .flushes ∉ as

theorem came_start (f : Frame) : Came f [] (start f) :=
  ⟨rfl, rfl, Nat.zero_le _, by simp [start], Nat.le_refl _, rfl, by simp [start], fun _ => by simp⟩

theorem Came.stop (h : Came f as w) (ho : w.outcome = none) {r : Except StreamFault Unit}
    (hc : a.count = 0) (hs : a.settles = true)
    (hr : r = .ok () ↔ w.taken = f.size ∧ a = .flushes) : Came f (as ++ [a]) (w.stop r) where
  frame := h.frame
  taken := by rw [Answer.total_append, hc]; exact h.taken
  within := h.within
  torn := h.torn
  calls := by
    rw [List.countP_append]
    simpa [Answer.accepts, hc, Writing.stop] using h.calls
  settled := by
    have hd := h.settled
    rw [ho] at hd
    rw [List.countP_append, List.countP_append, hd]
    simp [Answer.accepts, hc, hs, Writing.stop]
  returned := by
    have hn := h.flushed ho
    have hiff : some r = some (.ok ()) ↔ w.taken = f.size ∧ a = .flushes := by
      rw [Option.some_inj]
      exact hr
    change some r = some (.ok ()) ↔ w.taken = f.size ∧ Answer.flushes ∈ as ++ [a]
    rw [hiff, List.mem_append, List.mem_singleton, or_iff_right hn, eq_comm (a := a)]
  flushed hx := nomatch hx

/-- The sink takes some bytes of the ones offered. -/
theorem Came.advance (h : Came f as w) (ho : w.outcome = none) {n : Nat} (hn : 0 < n)
    (hl : n ≤ w.rest.length) : Came f (as ++ [.takes n]) (w.advance n) := by
  have hle : w.taken + n ≤ f.size := by
    have hw := h.within
    rw [length_rest, h.frame] at hl
    omega
  refine ⟨h.frame, ?_, hle, ?_, ?_, ?_, ?_, ?_⟩
  · rw [Answer.total_append, ← h.taken]
    rfl
  · change decide (w.taken + n < w.frame.size) = true ↔ 0 < w.taken + n ∧ w.taken + n < f.size
    rw [decide_eq_true_iff, h.frame]
    omega
  · have hc := h.calls
    rw [List.countP_append]
    change _ ≤ w.taken + n
    have h1 : List.countP Answer.accepts [.takes n] ≤ 1 := List.countP_le_length
    omega
  · have hs : List.countP Answer.accepts [.takes n] = 1 := by
      simp [Answer.accepts, Answer.count, hn]
    have hd := h.settled
    rw [List.countP_append, List.countP_append, hs, hd]
    change _ + 1 = _ + 1 + _
    rw [show (w.advance n).outcome = w.outcome from rfl, ho]
    rfl
  · rw [show (w.advance n).outcome = w.outcome from rfl, ho]
    have hf := h.flushed ho
    simp [hf]
  · intro _
    have hf := h.flushed ho
    simp [hf]

theorem Came.wait (h : Came f as w) : Came f (as ++ [.waits]) w where
  frame := h.frame
  taken := by rw [Answer.total_append]; exact h.taken
  within := h.within
  torn := h.torn
  calls := by
    rw [List.countP_append]
    exact h.calls
  settled := by
    rw [List.countP_append, List.countP_append]
    exact h.settled
  returned := by
    rw [List.mem_append, h.returned]
    simp
  flushed ho := by
    have hf := h.flushed ho
    simp [hf]

/-- **One answer of the sink**, to the question that is open. -/
theorem Came.answer (h : Came f as w) (ha : w.Fits a) : Came f (as ++ [a]) (w.answer a) := by
  obtain ⟨ho, ha⟩ := ha
  match a with
  | .takes 0 => exact h.stop ho rfl rfl (by simp)
  | .takes (n + 1) => exact h.advance ho (Nat.succ_pos n) ha.2
  | .flushes =>
    have ha : w.frame.size ≤ w.taken := ha
    rw [h.frame] at ha
    exact h.stop ho rfl rfl (by simp [Nat.le_antisymm h.within ha])
  | .waits => exact h.wait
  | .fails text => exact h.stop ho rfl rfl (by simp)

/-! ### What a run does -/

theorem Came.run (h : Came f as w) (hb : w.Fitting bs) : Came f (as ++ bs) (w.run bs) := by
  induction bs generalizing as w with
  | nil => rwa [List.append_nil]
  | cons b bs ih =>
    rw [List.append_cons]
    exact ih (h.answer hb.1) hb.2

theorem came (h : (start f).Fitting as) : Came f as ((start f).run as) := (came_start f).run h

/-- Every part of a frame can be out. -/
theorem exists_run {n : Nat} (hn : n ≤ f.size) : ∃ as, (start f).Fitting as ∧
    ((start f).run as).taken = n ∧ ((start f).run as).outcome = none := by
  by_cases h0 : n = 0
  · exact ⟨[], trivial, h0.symm, rfl⟩
  · obtain ⟨n, rfl⟩ := Nat.exists_eq_succ_of_ne_zero h0
    refine ⟨[.takes (n + 1)], ⟨⟨rfl, ?_, ?_⟩, trivial⟩, Nat.zero_add _, rfl⟩
    · exact Nat.lt_of_lt_of_le (Nat.succ_pos n) hn
    · rw [length_rest]
      exact hn

end Writing

end DocWire.Frame

/-! ### What a sink answers -/

namespace DocWire.Stream

open DocWire.Frame (Answer Writing)

/-- What a sink answers when it is asked to flush. -/
def Readiness.answer : Readiness → Answer
  | ready => .flushes
  | waits => .waits
  | fails text => .fails text

/-- What a sink answers when its budget is spent. -/
def Refusal.answer : Refusal → Answer
  | waits => .waits
  | takesNothing => .takes 0
  | fails text => .fails text

namespace Sink

/-- What a sink answers to a writing until it has to wait or the writing ends, in at most `fuel`
writes. -/
def answersFor : Nat → Sink → List UInt8 → List Answer
  | _, s, [] => [s.onFlush.answer]
  | 0, _, _ => []
  | fuel + 1, s, bs =>
    match s.grant bs.length with
    | none => [s.beyond.answer]
    | some 0 => [.takes 0]
    | some n => .takes n :: answersFor fuel (s.take (bs.take n)) (bs.drop n)

/-- What a sink answers to a writing until it has to wait or the writing ends. -/
def answers (s : Sink) (bs : List UInt8) : List Answer := answersFor bs.length s bs

/-- How a writing ends, if it does, with what has come of writing its bytes. -/
def ending (s : Sink) : Written → Option (Except StreamFault Unit)
  | .all =>
    match s.onFlush with
    | .ready => some (.ok ())
    | .waits => none
    | .fails text => some (.error (.reported text))
  | .waiting _ => none
  | .nothing _ => some (.error .frameNotAccepted)
  | .failed text _ => some (.error (.reported text))

variable {s : Sink} {w : Writing} {n m : Nat}

theorem grant_le (h : s.grant m = some n) : n ≤ m := by
  have hm : ∀ k ≤ m, (match s.budget with
      | none => some k
      | some 0 => none
      | some budget => some (min k budget)) = some n → n ≤ m := by
    intro k hk hn
    split at hn <;> simp at hn <;> omega
  unfold grant at h
  refine hm _ ?_ h
  split <;> omega

theorem run_flush {fuel : Nat} (ho : w.outcome = none) (hw : w.rest = []) :
    w.Fitting (s.answersFor fuel []) ∧
      (w.run (s.answersFor fuel [])).rest = (s.writeFor fuel []).1.rest ∧
      (w.run (s.answersFor fuel [])).outcome =
        (s.writeFor fuel []).2.ending (s.writeFor fuel []).1 := by
  have hle : w.frame.size ≤ w.taken := by
    have hl := w.length_rest
    rw [hw] at hl
    exact Nat.le_of_sub_eq_zero hl.symm
  simp only [answersFor, writeFor, ending]
  cases s.onFlush with
  | ready => exact ⟨⟨⟨ho, hle⟩, trivial⟩, hw, rfl⟩
  | waits => exact ⟨⟨⟨ho, trivial⟩, trivial⟩, hw, ho⟩
  | fails text => exact ⟨⟨⟨ho, trivial⟩, trivial⟩, hw, rfl⟩

/-- **A sink writes by answering.** Where a writing is left once a sink has taken what it takes of
its bytes is where the answers of the sink lead it. -/
theorem run_answersFor {fuel : Nat} {bs : List UInt8} (ho : w.outcome = none) (hw : w.rest = bs)
    (hf : bs.length ≤ fuel) :
    w.Fitting (s.answersFor fuel bs) ∧
      (w.run (s.answersFor fuel bs)).rest = (s.writeFor fuel bs).1.rest ∧
      (w.run (s.answersFor fuel bs)).outcome =
        (s.writeFor fuel bs).2.ending (s.writeFor fuel bs).1 := by
  induction fuel generalizing s w bs with
  | zero =>
    obtain rfl : bs = [] := List.length_eq_zero_iff.1 (Nat.le_zero.1 hf)
    exact run_flush ho hw
  | succ fuel ih =>
    match bs with
    | [] => exact run_flush ho hw
    | b :: bs =>
      have hl := w.length_rest
      rw [hw] at hl
      have hlt : w.taken < w.frame.size := by
        rw [List.length_cons] at hl
        omega
      cases hg : s.grant (b :: bs).length with
      | none =>
        simp only [answersFor, writeFor, hg]
        cases hx : s.beyond with
        | waits => exact ⟨⟨⟨ho, trivial⟩, trivial⟩, hw, ho⟩
        | takesNothing => exact ⟨⟨⟨ho, hlt, Nat.zero_le _⟩, trivial⟩, hw, rfl⟩
        | fails text => exact ⟨⟨⟨ho, trivial⟩, trivial⟩, hw, rfl⟩
      | some k =>
        have hk := grant_le hg
        cases k with
        | zero =>
          simp only [answersFor, writeFor, hg]
          exact ⟨⟨⟨ho, hlt, Nat.zero_le _⟩, trivial⟩, hw, rfl⟩
        | succ k =>
          have hrest : (w.advance (k + 1)).rest = (b :: bs).drop (k + 1) := by
            rw [← hw, Writing.rest_eq, Writing.rest_eq, List.drop_drop]
            rfl
          have hle : ((b :: bs).drop (k + 1)).length ≤ fuel := by
            rw [List.length_drop]
            omega
          obtain ⟨hfit, hr, hend⟩ := ih (s := s.take ((b :: bs).take (k + 1)))
            (w := w.advance (k + 1)) ho hrest hle
          simp only [answersFor, writeFor, hg]
          exact ⟨⟨⟨ho, hlt, hw ▸ hk⟩, hfit⟩, hr, hend⟩

end Sink

end DocWire.Stream
