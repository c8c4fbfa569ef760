import DocWire.Hex
import DocWire.Span

/-!
# Failures

Every way in which an operation of the client can fail, by its cause. `Failure.code` is the stable
number of a failure, `Failure.endsConnection` says whether the connection is beyond use after it,
and `Failure.message` is its wording, the only place where failures are put into words.
-/

namespace DocWire

/-- What can go wrong on the byte stream below the protocol, or on the way to one. An address may
lack a port or have one that is no 16-bit number; `reported` is a fault that the stream itself
describes. -/
inductive StreamFault where
  | handshakeNotAccepted
  | frameNotAccepted
  | frameNotWrittenInTime
  | endInsideHandshake
  | endInsideFrame
  | invalidAddress
  | invalidPort
  | reported (text : String)
  deriving DecidableEq, Repr, Inhabited

/-- The arguments of an operation that may not be empty. -/
inductive Argument where
  | query
  | collection
  | documentId
  deriving DecidableEq, Repr, Inhabited

/-- Why an argument or a setting is refused before anything is sent. Frame lengths have to fit 32
bits (`payloadTooLarge`) and the limit agreed for both directions (`frameAboveLimit`), credentials
16 bits; an id must not be waiting for its reply. `described` is a fault in the words of the caller. -/
inductive ArgumentFault where
  | payloadTooLarge (size : Nat)
  | frameAboveLimit (length limit : Nat)
  | credentialTooLong (size : Nat)
  | zeroConnectTimeout
  | zeroRequestTimeout
  | frameLimitTooSmall
  | credentialSettingTooLong
  | missing (argument : Argument)
  | bodyNotObject
  | idPending (id : String)
  | described (text : String)
  deriving DecidableEq, Repr, Inhabited

/-- Why bytes were not understood: a length out of bounds, a reply of another kind than the
operation waits for, or a payload that does not hold the value asked for. -/
inductive DecodeFault where
  | lengthBelowMinimum (length : Nat)
  | lengthAboveLimit (length limit : Nat)
  | unexpectedReply (expected got : String)
  | malformed
  | described (text : String)
  deriving DecidableEq, Repr, Inhabited

/-- Why a value has no encoding; `unserializable` is outside the data model of documents. -/
inductive EncodeFault where
  | unserializable
  | described (text : String)
  deriving DecidableEq, Repr, Inhabited

/-- Why the answer to a handshake is unusable. -/
inductive HandshakeFault where
  | unknownStatus (status : UInt8)
  | described (text : String)
  deriving DecidableEq, Repr, Inhabited

/-- Every failure of an operation. -/
inductive Failure where
  | connectFailed (fault : StreamFault)
  | handshakeFailed (fault : HandshakeFault)
  | versionMismatch (offered : UInt8)
  | authFailed
  | sendFailed (fault : StreamFault)
  | receiveFailed (fault : StreamFault)
  | timeout (bound : Span)
  | connectionClosed
  | invalidArgument (fault : ArgumentFault)
  | encodeFailed (fault : EncodeFault)
  | decodeFailed (fault : DecodeFault)
  | serverError (text : String)
  | notFound (what : String)
  deriving DecidableEq, Repr, Inhabited

/-- The smallest frame length: a frame without payload. -/
def minFrameLength : Nat := 2

/-- The largest credential, in bytes. -/
def maxCredentialSize : Nat := 65535

/-- The text of a stream fault. -/
def StreamFault.text : StreamFault → String
  | handshakeNotAccepted => "write zero"
  | frameNotAccepted => "write_vectored returned 0"
  | frameNotWrittenInTime => "frame write timed out"
  | endInsideHandshake => "early eof"
  | endInsideFrame => "connection closed in the middle of a frame"
  | invalidAddress => "invalid socket address"
  | invalidPort => "invalid port value"
  | reported text => text

/-- The name of an argument. -/
def Argument.name : Argument → String
  | query => "query"
  | collection => "collection"
  | documentId => "document id"

/-- The text of an argument fault. -/
def ArgumentFault.text : ArgumentFault → String
  | payloadTooLarge size => s!"payload of {size} bytes is too large"
  | frameAboveLimit length limit => s!"frame length {length} exceeds maximum {limit}"
  | credentialTooLong size => s!"credential of {size} bytes exceeds {maxCredentialSize} bytes"
  | zeroConnectTimeout => "connect timeout must be non-zero"
  | zeroRequestTimeout => "request timeout must be non-zero"
  | frameLimitTooSmall => s!"max frame size must be at least {minFrameLength}"
  | credentialSettingTooLong => s!"credential must be at most {maxCredentialSize} bytes"
  | missing argument => s!"{argument.name} must not be empty"
  | bodyNotObject => "document data must be an object"
  | idPending id => s!"request id {id} is already pending"
  | described text => text

/-- The text of a decoding fault. -/
def DecodeFault.text : DecodeFault → String
  | lengthBelowMinimum length => s!"frame length {length} is below minimum {minFrameLength}"
  | lengthAboveLimit length limit => s!"frame length {length} exceeds maximum {limit}"
  | unexpectedReply expected got => s!"expected {expected} reply, got {got}"
  | malformed => "malformed payload"
  | described text => text

/-- The text of an encoding fault. -/
def EncodeFault.text : EncodeFault → String
  | unserializable => "value cannot be serialized"
  | described text => text

/-- The text of a handshake fault. -/
def HandshakeFault.text : HandshakeFault → String
  | unknownStatus status => "unknown handshake status 0x" ++ String.ofList (hexByte status)
  | described text => text

namespace Failure

/-- The stable number of a failure. -/
def code : Failure → Nat
  | connectFailed _ => 1
  | handshakeFailed _ => 2
  | versionMismatch _ => 3
  | authFailed => 4
  | sendFailed _ => 5
  | receiveFailed _ => 6
  | timeout _ => 7
  | connectionClosed => 8
  | invalidArgument _ => 9
  | encodeFailed _ => 11
  | decodeFailed _ => 12
  | serverError _ => 13
  | notFound _ => 14

/-- Whether the connection can no longer be used after this failure. -/
def endsConnection : Failure → Bool
  | sendFailed _ | receiveFailed _ | connectionClosed => true
  | _ => false

/-- The stream fault below a failure, if one is. -/
def streamFault? : Failure → Option StreamFault
  | connectFailed fault | sendFailed fault | receiveFailed fault => some fault
  | _ => none

/-- The wording of a failure. -/
def message : Failure → String
  | connectFailed fault => "connection failed: " ++ fault.text
  | handshakeFailed fault => "handshake failed: " ++ fault.text
  | versionMismatch offered =>
    s!"protocol version mismatch (server offered version {offered.toNat})"
  | authFailed => "authentication failed"
  | sendFailed fault => "send failed: " ++ fault.text
  | receiveFailed fault => "receive failed: " ++ fault.text
  | timeout bound => "timed out after " ++ bound.text
  | connectionClosed => "connection closed"
  | invalidArgument fault => "invalid argument: " ++ fault.text
  | encodeFailed fault => "encoding failed: " ++ fault.text
  | decodeFailed fault => "decoding failed: " ++ fault.text
  | serverError text => "server error: " ++ text
  | notFound what => "not found: " ++ what

end Failure

end DocWire
