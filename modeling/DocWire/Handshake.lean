import DocWire.Config

/-!
# The handshake

One exchange opens every connection.

    request:  "SQRL" | version (1) | flags (1) | credential size (2, big-endian) | credential
    answer:   status (1) | version (1) | flags (1) | session id (16)

The request always offers JSON, and MessagePack too if that is preferred; bit 0 of the answer's
flags says which of the two the peer has chosen.
-/

namespace DocWire.Handshake

/-- The four bytes that open every handshake. -/
def magic : List UInt8 := [0x53, 0x51, 0x52, 0x4c]

/-- The protocol version spoken unless another is asked for. -/
def currentVersion : UInt8 := 1

/-- The opening message. -/
structure Request where
  version : UInt8
  preferred : Encoding
  credential : Option (List UInt8)
  deriving DecidableEq, Repr, Inhabited

namespace Request

/-- The request that a configuration makes. -/
def ofConfig (c : Config) : Request := ⟨currentVersion, c.encoding, c.credential⟩

/-- The encodings offered: bit 1 is JSON, bit 0 MessagePack. -/
def flags (r : Request) : UInt8 :=
  match r.preferred with
  | .messagePack => 3
  | .json => 2

/-- The bytes of a request; a credential whose size needs more than 16 bits is refused. -/
def encode? (r : Request) : Except Failure (List UInt8) :=
  let credential := r.credential.getD []
  if maxCredentialSize < credential.length then
    .error (.invalidArgument (.credentialTooLong credential.length))
  else
    .ok (magic ++ [r.version, r.flags] ++ BigEndian.bytes 2 credential.length ++ credential)

end Request

/-- The first byte of an answer. -/
inductive Status where
  | success
  | versionMismatch
  | authFailed
  | unknown (byte : UInt8)
  deriving DecidableEq, Repr, Inhabited

/-- The status of a byte. -/
def Status.ofByte (b : UInt8) : Status :=
  if b = 0 then .success
  else if b = 1 then .versionMismatch
  else if b = 2 then .authFailed
  else .unknown b

/-- The text of a status. -/
def Status.text : Status → String
  | success => "Success"
  | versionMismatch => "VersionMismatch"
  | authFailed => "AuthFailed"
  | unknown byte => s!"Unknown({byte.toNat})"

/-- What both sides have agreed on; sixteen bytes name the session. -/
structure Session where
  id : List UInt8
  version : UInt8
  encoding : Encoding
  deriving DecidableEq, Repr, Inhabited

/-- The session id in groups of 8, 4, 4, 4 and 12 hexadecimal digits. -/
def Session.idText (s : Session) : String :=
  let digits (bs : List UInt8) := String.ofList (bs.flatMap hexByte)
  let group (start stop : Nat) := digits ((s.id.take stop).drop start)
  "-".intercalate [group 0 4, group 4 6, group 6 8, group 8 10, group 10 16]

/-- The answer to a request. -/
structure Answer where
  status : Status
  version : UInt8
  flags : UInt8
  sessionId : List UInt8
  deriving DecidableEq, Repr, Inhabited

namespace Answer

/-- The size of an answer in bytes. -/
def size : Nat := 19

/-- The answer that a byte string opens with, if it is long enough. -/
def decode? : List UInt8 → Option Answer
  | status :: version :: flags :: rest =>
    if rest.length < 16 then none
    else some ⟨Status.ofByte status, version, flags, rest.take 16⟩
  | _ => none

/-- The encoding that bit 0 of the flags selects. -/
def encoding (a : Answer) : Encoding := if a.flags &&& 1 = 0 then .json else .messagePack

/-- The session that an answer grants, or why it grants none. -/
def session (a : Answer) : Except Failure Session :=
  match a.status with
  | .success => .ok ⟨a.sessionId, a.version, a.encoding⟩
  | .versionMismatch => .error (.versionMismatch a.version)
  | .authFailed => .error .authFailed
  | .unknown byte => .error (.handshakeFailed (.unknownStatus byte))

end Answer

end DocWire.Handshake

namespace DocWire.Config

/-- The bytes that a connection opens with, if the settings allow one. -/
def opening (c : Config) : Except Failure (List UInt8) :=
  c.validate.bind fun _ => (Handshake.Request.ofConfig c).encode?

end DocWire.Config
