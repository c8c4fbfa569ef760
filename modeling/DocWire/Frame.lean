import DocWire.BigEndian
import DocWire.Failure

/-!
# Frames

All traffic after the handshake travels in frames: a header of six bytes, then a payload.

    length (4 bytes, big endian) | kind (1 byte) | encoding (1 byte) | payload

The length counts the kind byte, the encoding byte and the payload, so it is the payload's size plus
two. Kind and encoding are kept as raw bytes: a value that nobody knows is a matter of the payload
and leaves the framing intact.
-/

namespace DocWire

/-- What a frame says about itself: a request, a reply to one, or an unasked push. -/
inductive FrameKind where
  | request
  | response
  | notification
  deriving DecidableEq, Repr, Inhabited

/-- The two encodings of payloads. -/
inductive Encoding where
  | messagePack
  | json
  deriving DecidableEq, Repr, Inhabited

namespace FrameKind

/-- The byte of a frame kind. -/
def toByte : FrameKind → UInt8
  | request => 1
  | response => 2
  | notification => 3

/-- The frame kind of a byte. -/
def ofByte? (b : UInt8) : Option FrameKind :=
  if b = 1 then some request
  else if b = 2 then some response
  else if b = 3 then some notification
  else none

/-- The name of a frame kind. -/
def name : FrameKind → String
  | request => "Request"
  | response => "Response"
  | notification => "Notification"

@[simp] theorem ofByte?_toByte (k : FrameKind) : ofByte? k.toByte = some k := by
  cases k <;> rfl

end FrameKind

namespace Encoding

/-- The byte of an encoding. -/
def toByte : Encoding → UInt8
  | messagePack => 1
  | json => 2

/-- The encoding of a byte. -/
def ofByte? (b : UInt8) : Option Encoding :=
  if b = 1 then some messagePack
  else if b = 2 then some json
  else none

/-- The short name of an encoding. -/
def name : Encoding → String
  | messagePack => "msgpack"
  | json => "json"

/-- The full name of an encoding. -/
def title : Encoding → String
  | messagePack => "MessagePack"
  | json => "Json"

@[simp] theorem ofByte?_toByte (e : Encoding) : ofByte? e.toByte = some e := by
  cases e <;> rfl

end Encoding

/-- The first six bytes of a frame; the length counts the payload and two bytes more. -/
structure Header where
  length : UInt32
  kind : UInt8
  encoding : UInt8
  deriving DecidableEq, Repr, Inhabited

namespace Header

/-- The size of a header in bytes. -/
def size : Nat := 6

/-- The header of a payload of the given size; a length that needs more than 32 bits is refused. -/
def ofPayload? (kind : FrameKind) (encoding : Encoding) (payloadSize : Nat) :
    Except Failure Header :=
  if payloadSize + minFrameLength < 0x100000000 then
    .ok ⟨UInt32.ofNat (payloadSize + minFrameLength), kind.toByte, encoding.toByte⟩
  else .error (.invalidArgument (.payloadTooLarge payloadSize))

/-- The size of the payload that a header announces. -/
def payloadSize (h : Header) : Nat := h.length.toNat - minFrameLength

/-- The kind of frame, if its byte is known. -/
def kind? (h : Header) : Option FrameKind := FrameKind.ofByte? h.kind

/-- The encoding of the payload, if its byte is known. -/
def encoding? (h : Header) : Option Encoding := Encoding.ofByte? h.encoding

/-- The six bytes of a header. -/
def encode (h : Header) : List UInt8 :=
  BigEndian.bytes 4 h.length.toNat ++ [h.kind, h.encoding]

/-- The header at the start of a byte string, once six bytes are there. -/
def decode? : List UInt8 → Option Header
  | a :: b :: c :: d :: kind :: encoding :: _ =>
    some ⟨UInt32.ofNat (BigEndian.value [a, b, c, d]), kind, encoding⟩
  | _ => none

/-- The fault of a header whose length is below two or above the limit. -/
def fault? (h : Header) (limit : UInt32) : Option DecodeFault :=
  if h.length.toNat < minFrameLength then some (.lengthBelowMinimum h.length.toNat)
  else if limit < h.length then some (.lengthAboveLimit h.length.toNat limit.toNat)
  else none

@[simp] theorem length_encode (h : Header) : h.encode.length = size := by
  simp [encode, size]

/-- **A header is read back**, whatever follows it. -/
theorem decode?_encode (h : Header) (rest : List UInt8) : decode? (h.encode ++ rest) = some h := by
  have hv : UInt32.ofNat (BigEndian.value (BigEndian.bytes 4 h.length.toNat)) = h.length := by
    rw [BigEndian.value_bytes (show h.length.toNat < 4294967296 from h.length.toNat_lt)]
    simp
  have hb : (BigEndian.bytes 4 h.length.toNat).length = 4 := BigEndian.length_bytes _ _
  unfold encode
  match hm : BigEndian.bytes 4 h.length.toNat, hb with
  | [a, b, c, d], _ =>
    rw [hm] at hv
    simp [decode?, hv]

end Header

/-- A header with its payload. -/
structure Frame where
  header : Header
  payload : List UInt8
  deriving DecidableEq, Repr, Inhabited

namespace Frame

/-- The limit on frame lengths unless another is set: 16 MiB. -/
def defaultLimit : UInt32 := 16777216

/-- The bytes of a frame. -/
def toBytes (f : Frame) : List UInt8 := f.header.encode ++ f.payload

/-- Whether a frame calls itself a push. -/
def isNotification (f : Frame) : Bool := f.header.kind? == some .notification

/-- The bytes of the frame that carries a payload; a payload that is too large is refused. -/
def encode? (kind : FrameKind) (encoding : Encoding) (payload : List UInt8) :
    Except Failure (List UInt8) :=
  (Header.ofPayload? kind encoding payload.length).map fun h => toBytes ⟨h, payload⟩

end Frame

end DocWire
