import DocWire.Frame

/-!
# Collecting frames from fragments

Bytes arrive in fragments that know nothing of frames. A buffer keeps what has arrived and cuts
whole frames off its front. A header is checked and taken as soon as its sixth byte is there, so a
length out of bounds is refused before any of its payload; such a header is never taken, and the
buffer stays refused until it is cleared.

`cut` takes one frame, `push` adds bytes and takes all the frames there are.
-/

namespace DocWire.Frame

/-- Bytes that have arrived and have not been given out in a frame. A header that has been checked
is taken while its payload is incomplete; `bytes` are those behind it, or else behind the last whole
frame. -/
structure Buffer where
  limit : UInt32
  bytes : List UInt8
  header : Option Header
  deriving DecidableEq, Repr, Inhabited

/-- What is at the front of a buffer: a frame, too few bytes for one, or a header with a length out
of bounds. -/
inductive Cut where
  | frame (f : Frame)
  | starved
  | refused (fault : DecodeFault)
  deriving DecidableEq, Repr, Inhabited

namespace Buffer

/-- A buffer that holds nothing. -/
def empty (limit : UInt32) : Buffer := ⟨limit, [], none⟩

/-- The number of bytes held. -/
def size (b : Buffer) : Nat := b.bytes.length

/-- Whether a frame has been started and not finished. -/
def hasPartial (b : Buffer) : Bool := !b.bytes.isEmpty || b.header.isSome

/-- The same buffer with nothing in it. -/
def clear (b : Buffer) : Buffer := empty b.limit

/-- The same buffer with more bytes at its end. -/
def append (b : Buffer) (data : List UInt8) : Buffer := { b with bytes := b.bytes ++ data }

/-- The frame of a header that has been taken, once its payload is complete. -/
def cutPayload (b : Buffer) (h : Header) : Cut × Buffer :=
  if b.bytes.length < h.payloadSize then (.starved, { b with header := some h })
  else
    (.frame ⟨h, b.bytes.take h.payloadSize⟩,
      { b with bytes := b.bytes.drop h.payloadSize, header := none })

/-- Takes the frame at the front of a buffer. -/
def cut (b : Buffer) : Cut × Buffer :=
  match b.header with
  | some h => b.cutPayload h
  | none =>
    match Header.decode? b.bytes with
    | none => (.starved, b)
    | some h =>
      match h.fault? b.limit with
      | some fault => (.refused fault, b)
      | none => { b with bytes := b.bytes.drop Header.size }.cutPayload h

/-- How much a buffer has left to give: its bytes, and the header that has been taken. -/
def weight (b : Buffer) : Nat := b.bytes.length + (if b.header.isSome then 1 else 0)

theorem weight_cutPayload {b b' : Buffer} {h : Header} {f : Frame}
    (hc : b.cutPayload h = (.frame f, b')) : b'.weight ≤ b.bytes.length := by
  unfold cutPayload at hc
  split at hc
  · cases hc
  · cases hc; simp [weight]

/-- **Every frame taken makes the buffer lighter.** -/
theorem weight_cut {b b' : Buffer} {f : Frame} (hc : b.cut = (.frame f, b')) :
    b'.weight < b.weight := by
  unfold cut at hc
  split at hc
  next h hh =>
    have hw := weight_cutPayload hc
    have hb : b.weight = b.bytes.length + 1 := by simp [weight, hh]
    omega
  next hh =>
    split at hc
    · cases hc
    next h hd =>
      split at hc
      · cases hc
      · have hw := weight_cutPayload hc
        have hl : 0 < b.bytes.length := by
          cases hb : b.bytes with
          | nil => rw [hb] at hd; simp [Header.decode?] at hd
          | cons => simp
        simp only [List.length_drop, Header.size] at hw
        unfold weight
        unfold weight at hw
        omega

/-- Takes all whole frames at the front of a buffer; with them comes the fault that follows them, if
one does. -/
def cutAll (b : Buffer) : List Frame × Option DecodeFault × Buffer :=
  match _hc : b.cut with
  | (.frame f, b') =>
    let (fs, fault, rest) := b'.cutAll
    (f :: fs, fault, rest)
  | (.starved, b') => ([], none, b')
  | (.refused fault, b') => ([], some fault, b')
termination_by b.weight
decreasing_by exact weight_cut _hc

/-- Adds bytes and takes all whole frames. A fault loses the frames taken before it. -/
def push (b : Buffer) (data : List UInt8) : Except DecodeFault (List Frame) × Buffer :=
  match (b.append data).cutAll with
  | (fs, none, b') => (.ok fs, b')
  | (_, some fault, b') => (.error fault, b')

end Buffer

end DocWire.Frame
