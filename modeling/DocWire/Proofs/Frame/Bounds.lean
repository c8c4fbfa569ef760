import Mathlib.Logic.Relation
import DocWire.Proofs.Frame.Streams

/-! # Reading in bounded space

A reader is a buffer with the stream that fills it. A call looks for a frame among the bytes at hand,
reads if there is none, and looks again; where it reads it may have to wait, and may be given up. The
peer sends at any time. These are the moves of a reader (`Moves`), and the function that gives frames
is a run of them (`later_next`).

A read is due only while less than a header is at hand, or less than the payload that a header in
bounds announces (`size_lt_of_starved`). One move keeps to that (`Within.moves`), so no run goes beyond
it by more than one read (`Reachable.within`). Nor would a smaller bound do: any bytes that decide
nothing can be at hand when a read is due (`exists_reading`), and the read can be as long as a read
can be (`exists_looking`). -/

namespace DocWire.Stream.Source

variable {s s' : Source} {limit : Nat} {bs : List UInt8}

theorem length_readFront_le {sent sent' : List Sent}
    (hr : readFront limit sent = (.bytes bs, sent')) : bs.length ≤ limit := by
  induction sent with
  | nil => cases hr
  | cons x sent ih =>
    cases x with
    | chunk c =>
      cases c with
      | nil => exact ih hr
      | cons b c =>
        cases hr
        exact List.length_take_le _ _
    | ending => cases hr
    | fault text => cases hr

/-- **A read gives no more than it was asked for.** -/
theorem length_read_le (hr : s.read limit = (.bytes bs, s')) : bs.length ≤ limit := by
  unfold read at hr
  exact length_readFront_le (Prod.ext (Prod.mk.inj hr).1 rfl)

theorem read_chunk {rest : List Sent} (hn : bs ≠ []) (hl : bs.length ≤ limit) :
    read ⟨.chunk bs :: rest⟩ limit = (.bytes bs, ⟨.chunk [] :: rest⟩) := by
  cases bs with
  | nil => exact absurd rfl hn
  | cons b bs =>
    unfold read
    dsimp only [readFront]
    rw [List.take_of_length_le hl, List.drop_of_length_le hl]

end DocWire.Stream.Source

namespace DocWire.Frame

open DocWire.Stream

namespace Buffer

variable {b b' : Buffer} {f : Frame} {h : Header}

/-- The most bytes that can be at hand when a read is due: all but one of a header, or all but one of
the largest payload. -/
def lacking (limit : UInt32) : Nat := max 5 (limit.toNat - 3)

theorem size_append (b : Buffer) (data : List UInt8) :
    (b.append data).size = b.size + data.length := List.length_append

theorem Sound.payloadSize_le (hs : b.Sound) (hh : b.header = some h) :
    h.payloadSize + minFrameLength ≤ b.limit.toNat := by
  obtain ⟨hm, hl⟩ := Header.fault?_eq_none.1 (hs h hh)
  rw [UInt32.le_iff_toNat_le] at hl
  unfold Header.payloadSize
  omega

/-- A frame that is given out takes bytes and brings none. -/
theorem Sound.size_le_of_frame (hs : b.Sound) (hc : b.cut = (.frame f, b')) : b'.size ≤ b.size := by
  have hx := hs.cuts
  rw [hc] at hx
  cases hx with
  | frame hf hb hl hn =>
    have hz := congrArg List.length hb
    rw [List.length_append, length_toBytes, length_held, length_held, hn] at hz
    simp only [Option.isSome_none, Bool.false_eq_true, if_false] at hz
    split at hz <;> omega

/-- A buffer that has been cut in vain misses a part of a header, or of the payload behind one. -/
theorem size_lt_of_starved (hc : b.cut = (.starved, b)) :
    b.header = none ∧ b.size < Header.size ∨ ∃ h, b.header = some h ∧ b.size < h.payloadSize := by
  unfold cut at hc
  split at hc
  next h hh =>
    right
    unfold cutPayload at hc
    split at hc
    next hl => exact ⟨h, hh, hl⟩
    next => cases hc
  next hh =>
    left
    split at hc
    next hd => exact ⟨hh, Header.decode?_eq_none.1 hd⟩
    next h hd =>
      split at hc
      next => cases hc
      next =>
        -- A header in bounds would have been taken, and here none has been.
        unfold cutPayload at hc
        split at hc
        next =>
          have hx := congrArg (fun p => p.2.header) hc
          rw [hh] at hx
          cases hx
        next => cases hc

/-- **Few bytes are at hand in a buffer that has been cut in vain.** -/
theorem Sound.size_le_of_starved (hs : b.Sound) (hc : b.cut = (.starved, b)) :
    b.size ≤ lacking b.limit := by
  unfold lacking
  rcases size_lt_of_starved hc with ⟨-, hz⟩ | ⟨h, hh, hz⟩
  · rw [Header.size] at hz
    omega
  · have hp := hs.payloadSize_le hh
    rw [minFrameLength] at hp
    omega

end Buffer

/-! ### The moves of a reader -/

/-- Where a reader stands: between two calls, in a call that is about to look for a frame, or in one
that has found none and reads, or waits for something to read. -/
inductive Place where
  | idle
  | looking
  | reading
  deriving DecidableEq, Repr

/-- How many bytes may be buffered at a place on top of those that a read finds at hand. -/
def Place.surplus : Place → Nat
  | idle => readSize
  | looking => readSize
  | reading => 0

/-- Where a call stands with its answer; one that has to wait stays in its read. -/
def Place.after : Next → Place
  | .waiting => reading
  | _ => idle

/-- A buffer with the stream that fills it. -/
structure Reader where
  place : Place
  buffer : Buffer
  source : Source

namespace Reader

open Buffer

variable {r r' : Reader} {b b' : Buffer} {s s' : Source} {limit : UInt32} {data : List UInt8}

/-- One move of a reader, or of the peer, which may send at any time (`feed`). A call that reads can
be given up (`cancel`). -/
inductive Moves : Reader → Reader → Prop
  | call (b : Buffer) (s : Source) : Moves ⟨.idle, b, s⟩ ⟨.looking, b, s⟩
  | frame {b b' : Buffer} {f : Frame} (hc : b.cut = (.frame f, b')) (s : Source) :
      Moves ⟨.looking, b, s⟩ ⟨.idle, b', s⟩
  | refused {b b' : Buffer} {x : DecodeFault} (hc : b.cut = (.refused x, b')) (s : Source) :
      Moves ⟨.looking, b, s⟩ ⟨.idle, b', s⟩
  | starved {b b' : Buffer} (hc : b.cut = (.starved, b')) (s : Source) :
      Moves ⟨.looking, b, s⟩ ⟨.reading, b', s⟩
  | bytes {s s' : Source} {bs : List UInt8} (b : Buffer)
      (hr : s.read readSize = (.bytes bs, s')) :
      Moves ⟨.reading, b, s⟩ ⟨.looking, b.append bs, s'⟩
  | ended {s s' : Source} (b : Buffer) (hr : s.read readSize = (.ended, s')) :
      Moves ⟨.reading, b, s⟩ ⟨.idle, b, s'⟩
  | failed {s s' : Source} {text : String} (b : Buffer)
      (hr : s.read readSize = (.failed text, s')) : Moves ⟨.reading, b, s⟩ ⟨.idle, b, s'⟩
  | waits {s s' : Source} (b : Buffer) (hr : s.read readSize = (.waiting, s')) :
      Moves ⟨.reading, b, s⟩ ⟨.reading, b, s'⟩
  | cancel (b : Buffer) (s : Source) : Moves ⟨.reading, b, s⟩ ⟨.idle, b, s⟩
  | feed (r : Reader) (more : List Sent) : Moves r { r with source := r.source.feed more }

/-- The readers that a reader can become. -/
def Later : Reader → Reader → Prop := Relation.ReflTransGen Moves

/-- The readers of a limit that can come about, on any stream. -/
def Reachable (limit : UInt32) (r : Reader) : Prop :=
  ∃ s, Later ⟨.idle, .empty limit, s⟩ r

theorem Later.refl (r : Reader) : r.Later r := Relation.ReflTransGen.refl

theorem Later.trans {r'' : Reader} (h : r.Later r') (h' : r'.Later r'') : r.Later r'' :=
  Relation.ReflTransGen.trans h h'

theorem Moves.later (h : Moves r r') : r.Later r' := Relation.ReflTransGen.single h

theorem Reachable.later (h : Reachable limit r) (h' : r.Later r') : Reachable limit r' := by
  obtain ⟨s, hx⟩ := h
  exact ⟨s, hx.trans h'⟩

theorem Reachable.moves (h : Reachable limit r) (h' : Moves r r') : Reachable limit r' :=
  h.later h'.later

/-! ### What every move keeps -/

/-- A reader that stays within its limit: only what a read has just brought comes on top of what was
at hand when it was due, and a read is due only to a buffer that has been cut in vain. -/
structure Within (limit : UInt32) (r : Reader) : Prop where
  sound : r.buffer.Sound
  atLimit : r.buffer.limit = limit
  size : r.buffer.size ≤ lacking limit + r.place.surplus
  due : r.place = .reading → r.buffer.cut = (.starved, r.buffer)

theorem within_initial (limit : UInt32) (s : Source) : Within limit ⟨.idle, .empty limit, s⟩ :=
  ⟨sound_empty limit, rfl, Nat.zero_le _, nofun⟩

/-- A cut ends the call, or makes a read due. -/
theorem Within.cut {c : Cut} (h : Within limit ⟨.looking, b, s⟩) (hc : b.cut = (c, b')) :
    Within limit ⟨if c = .starved then .reading else .idle, b', s⟩ := by
  obtain ⟨hs, rfl, hz, -⟩ := h
  have hx := hs.cuts
  rw [hc] at hx
  cases hx with
  | frame hf hb hl hn =>
    exact ⟨sound_of_no_header hn, hl, Nat.le_trans (hs.size_le_of_frame hc) hz, nofun⟩
  | starved hd hb hl hs' hc' => exact ⟨hs', hl, hl ▸ hs'.size_le_of_starved hc', fun _ => hc'⟩
  | refused hr => exact ⟨hs, rfl, hz, nofun⟩

theorem Within.leave (h : Within limit ⟨.reading, b, s⟩) (s' : Source) : Within limit ⟨.idle, b, s'⟩ :=
  ⟨h.sound, h.atLimit, Nat.le_trans h.size (Nat.le_add_right _ _), nofun⟩

/-- **One move stays within the limit.** -/
theorem Within.moves (h : Within limit r) (hm : Moves r r') : Within limit r' := by
  cases hm with
  | call b s => exact ⟨h.sound, h.atLimit, h.size, nofun⟩
  | frame hc s => exact h.cut hc
  | refused hc s => exact h.cut hc
  | starved hc s => exact h.cut hc
  | bytes b hr =>
    have hz : b.size ≤ lacking limit := h.size
    refine ⟨sound_append h.sound _, h.atLimit, ?_, nofun⟩
    rw [size_append]
    exact Nat.add_le_add hz (Source.length_read_le hr)
  | ended b hr => exact h.leave _
  | failed b hr => exact h.leave _
  | waits b hr => exact ⟨h.sound, h.atLimit, h.size, h.due⟩
  | cancel b s => exact h.leave s
  | feed r more => exact ⟨h.sound, h.atLimit, h.size, h.due⟩

/-- **Whatever is sent and however it is asked for, a reader stays within its limit.** -/
theorem Reachable.within (h : Reachable limit r) : Within limit r := by
  obtain ⟨s, hx⟩ := h
  induction hx with
  | refl => exact within_initial limit s
  | tail _ hm ih => exact ih.moves hm

/-! ### Calls as moves -/

theorem later_of_call {reads : List (List UInt8)} {out : Next × Buffer × Source}
    (hx : Buffer.Call b s reads out) : Later ⟨.looking, b, s⟩ ⟨.after out.1, out.2.1, out.2.2⟩ := by
  induction hx with
  | frame hc => exact (Moves.frame hc _).later
  | refused hc => exact (Moves.refused hc _).later
  | bytes hc hr _ ih => exact ((Moves.starved hc _).later.trans (Moves.bytes _ hr).later).trans ih
  | @ended b b' s s' hc hr =>
    have hl := (Moves.starved hc s).later.trans (Moves.ended b' hr).later
    dsimp only
    split
    · exact hl
    · exact hl
  | failed hc hr => exact (Moves.starved hc _).later.trans (Moves.failed _ hr).later
  | waiting hc hr => exact (Moves.starved hc _).later.trans (Moves.waits _ hr).later

/-- **The function that gives frames makes the moves of a reader.** -/
theorem later_next (hs : b.Sound) (s : Source) :
    Later ⟨.idle, b, s⟩ ⟨.after (b.next s).1, (b.next s).2.1, (b.next s).2.2⟩ := by
  obtain ⟨reads, hx, -⟩ := call_next hs s
  exact (Moves.call b s).later.trans (later_of_call hx)

theorem later_idle (n : Next) (b : Buffer) (s : Source) :
    Later ⟨.after n, b, s⟩ ⟨.idle, b, s⟩ := by
  cases n with
  | waiting => exact (Moves.cancel b s).later
  | frame f => exact .refl _
  | finished => exact .refl _
  | failed e => exact .refl _

/-! ### The bound is met -/

/-- **Any bytes that decide nothing can be at hand when a read is due.** -/
theorem exists_reading (hd : ¬ Decided limit data) :
    ∃ b, Reachable limit ⟨.reading, b, .quiet⟩ ∧ b.held = data := by
  have hx := takes_next (sound_empty limit) .open [data]
  have hl := later_next (sound_empty limit) (Ending.open.stream [data])
  have hb : (empty limit).held ++ [data].flatten = data := by simp [held_empty]
  revert hx hl
  generalize hn : (empty limit).next (Ending.open.stream [data]) = out
  intro hx hl
  cases hx with
  | frame hf hs hl' hb' => exact absurd (.inl ⟨_, _, hf, hb.symm.trans hb'⟩) hd
  | refused hr hc => exact absurd (.inr ⟨_, hb ▸ hr⟩) hd
  | @stopped b s _ =>
    obtain ⟨-, -, hh, rfl, -⟩ := (sound_empty limit).waits hn
    exact ⟨b, ⟨_, hl⟩, hh.trans hb⟩

/-- The next read can be as long as a read can be. -/
theorem exists_looking (h : Reachable limit ⟨.reading, b, .quiet⟩) :
    ∃ b' s, Reachable limit ⟨.looking, b', s⟩ ∧ b'.size = b.size + readSize := by
  have hl : (List.replicate readSize (0 : UInt8)).length = readSize := List.length_replicate
  have hn : List.replicate readSize (0 : UInt8) ≠ [] := by
    rw [← List.length_pos_iff, hl]
    decide
  have hf := h.moves (.feed _ [.chunk (List.replicate readSize 0)])
  refine ⟨_, _, hf.moves (.bytes b (Source.read_chunk hn (Nat.le_of_eq hl))), ?_⟩
  rw [size_append, hl]

/-- As many bytes as the bound allows can be at hand when a read is due. -/
theorem exists_lacking (limit : UInt32) :
    ∃ b, Reachable limit ⟨.reading, b, .quiet⟩ ∧ b.size = lacking limit := by
  unfold lacking
  by_cases hl : limit.toNat ≤ 8
  · have hd : ¬ Decided limit (List.replicate 5 0) := not_decided_of_length_lt (by decide)
    obtain ⟨b, hr, hb⟩ := exists_reading hd
    have hz := b.length_held
    rw [hb, List.length_replicate, Header.size] at hz
    refine ⟨b, hr, ?_⟩
    split at hz <;> omega
  · have hf : Header.fault? ⟨limit, 0, 0⟩ limit = none :=
      Header.fault?_eq_none.2 ⟨show 2 ≤ limit.toNat by omega, UInt32.le_refl _⟩
    have hp : (List.replicate (limit.toNat - 3) (0 : UInt8)).length <
        Header.payloadSize ⟨limit, 0, 0⟩ := by
      rw [List.length_replicate]
      show limit.toNat - 3 < limit.toNat - 2
      omega
    obtain ⟨b, hr, hb⟩ := exists_reading (not_decided_of_short hf hp)
    have hz := b.length_held
    rw [hb, List.length_append, Header.length_encode, List.length_replicate, Header.size] at hz
    -- With the header not taken there would be more bytes at hand than a read finds.
    have hk : b.size ≤ max 5 (limit.toNat - 3) := hr.within.size
    refine ⟨b, hr, ?_⟩
    split at hz <;> omega

/-! ### The whole contract -/

/-- What holds of the readers of a limit, on every stream and for any calls, given up or not. What
is buffered is at most all but one byte of a header, or of the largest payload, and one read; no
smaller bound would do. A header that has been taken announces at most the largest payload, and a
read is due only while a header is incomplete, or the payload that one announces. The function that
gives frames leads from one of these readers to another. -/
structure Bounded (limit : UInt32) : Prop where
  size : ∀ r, Reachable limit r → r.buffer.size ≤ max 5 (limit.toNat - 3) + 65536
  payload : ∀ r h, Reachable limit r → r.buffer.header = some h →
    h.payloadSize + 2 ≤ limit.toNat
  due : ∀ r, Reachable limit r → r.place = .reading →
    r.buffer.header = none ∧ r.buffer.size < 6 ∨
      ∃ h, r.buffer.header = some h ∧ r.buffer.size < h.payloadSize
  next : ∀ b s, Reachable limit ⟨.idle, b, s⟩ →
    Reachable limit ⟨.idle, (b.next s).2.1, (b.next s).2.2⟩
  attained : ∃ r, Reachable limit r ∧ r.buffer.size = max 5 (limit.toNat - 3) + 65536

/-- **The buffer of a reader stays bounded.** -/
theorem stays_bounded (limit : UInt32) : Bounded limit where
  size r h := by
    have hs : r.place.surplus ≤ readSize := by
      cases r.place <;> decide
    exact Nat.le_trans h.within.size (Nat.add_le_add_left hs _)
  payload r x h hx := by
    obtain ⟨hs, rfl, -, -⟩ := h.within
    exact hs.payloadSize_le hx
  due r h hr := size_lt_of_starved (h.within.due hr)
  next b s h := (h.later (later_next h.within.sound s)).later (later_idle _ _ _)
  attained := by
    obtain ⟨b, hr, hz⟩ := exists_lacking limit
    obtain ⟨b', s, hl, hz'⟩ := exists_looking hr
    exact ⟨_, hl, hz'.trans (hz ▸ rfl)⟩

end Reader

end DocWire.Frame
