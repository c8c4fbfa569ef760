import DocWire.Failure
import DocWire.Frame
import DocWire.Json.Parser
import DocWire.Json.Printer
import DocWire.MessagePack.Parser
import DocWire.MessagePack.Printer
import DocWire.Message.Reading

/-!
# Payloads

A payload is written in one of the two encodings and read in the encoding that its frame names.
Reading goes from the bytes to the tree that they spell, and from there to what is asked for; there
is one outcome for everything that is not understood.
-/

namespace DocWire.Encoding

/-- The deepest nesting of arrays and objects that is taken into memory from JSON. -/
def jsonRoom : Nat := 127

/-- How records are read in an encoding. -/
def reading : Encoding → Reading
  | messagePack => ⟨.unsigned, MessagePack.maxNesting⟩
  | json => ⟨.never, jsonRoom⟩

/-- The tree that a payload spells. -/
def parse? : Encoding → List UInt8 → Option Node
  | messagePack => MessagePack.parse?
  | json => Json.parse?

/-- The payload of a value. -/
def print : Encoding → Value → List UInt8
  | messagePack => MessagePack.print
  | json => Json.print

/-- Reads what is asked for off a payload. -/
def decode? {α : Type} (read? : Reading → Node → Option α) (e : Encoding) (payload : List UInt8) :
    Option α :=
  (e.parse? payload).bind (read? e.reading)

/-- Reads what is asked for off a payload, or fails. -/
def decode {α : Type} (read? : Reading → Node → Option α) (e : Encoding) (payload : List UInt8) :
    Except Failure α :=
  match e.decode? read? payload with
  | some a => .ok a
  | none => .error (.decodeFailed .malformed)

end DocWire.Encoding
