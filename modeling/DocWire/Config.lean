import DocWire.Frame
import DocWire.Text
import DocWire.Text.Shown

/-!
# Settings of a client

`Config.fault?` tells the first setting that no connection can be made with; it is asked before a
byte is written. The text of a configuration never shows the credential.
-/

namespace DocWire

/-- The settings of a client. One timeout bounds the way to the peer and the handshake, the other
the wait for each reply and the writing of each frame. The encoding is the one asked for, the
credential goes to the peer as it is, and the limit is on frame lengths in both directions. -/
structure Config where
  connectTimeout : Span
  requestTimeout : Span
  encoding : Encoding
  credential : Option (List UInt8)
  frameLimit : UInt32
  deriving DecidableEq, Repr

namespace Config

/-- The settings unless others are made. -/
def default : Config := ⟨⟨5, 0⟩, ⟨30, 0⟩, .messagePack, none, Frame.defaultLimit⟩

instance : Inhabited Config := ⟨default⟩

/-- The first setting that rules a connection out. -/
def fault? (c : Config) : Option ArgumentFault :=
  if c.connectTimeout.isZero then some .zeroConnectTimeout
  else if c.requestTimeout.isZero then some .zeroRequestTimeout
  else if c.frameLimit.toNat < minFrameLength then some .frameLimitTooSmall
  else if maxCredentialSize < (c.credential.getD []).length then some .credentialSettingTooLong
  else none

/-- Accepts the settings that a connection can be made with. -/
def validate (c : Config) : Except Failure Unit :=
  match c.fault? with
  | some fault => .error (.invalidArgument fault)
  | none => .ok ()

/-- The text of a configuration, without its credential. -/
def text (c : Config) : String :=
  Text.record "ClientConfig"
    [("connect_timeout", c.connectTimeout.text),
     ("request_timeout", c.requestTimeout.text),
     ("encoding", c.encoding.title),
     ("credential",
        if c.credential.isSome then "Some(" ++ Text.quoted "<redacted>" ++ ")" else "None"),
     ("max_frame_size", toString c.frameLimit.toNat)]

/-- The text of a configuration that is still being put together. -/
def builderText (c : Config) : String := Text.record "ClientBuilder" [("config", c.text)]

/-- A configuration whose credential is a token. -/
def withToken (c : Config) (token : String) : Config :=
  { c with credential := some (Text.toBytes token) }

end Config

end DocWire
