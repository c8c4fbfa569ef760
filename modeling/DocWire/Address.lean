import DocWire.Config

/-!
# Addresses of peers

An address is a host and a port, split at the last colon. A port is a 16-bit decimal number, which
may carry a plus sign.
-/

namespace DocWire.Address

/-- The text behind the last colon. -/
def portText? (address : List Char) : Option (List Char) :=
  if ':' ∈ address then some (address.reverse.takeWhile (· != ':')).reverse else none

/-- The number that a text of digits spells. -/
def digitsValue? : List Char → Option Nat
  | [] => none
  | cs =>
    if cs.all Char.isDigit then some (cs.foldl (fun n c => n * 10 + (c.toNat - '0'.toNat)) 0)
    else none

/-- The port that a text spells. -/
def port? (cs : List Char) : Option Nat :=
  let digits := match cs with
    | '+' :: rest => rest
    | cs => cs
  (digitsValue? digits).filter (· < 0x10000)

/-- What rules an address out before any connection is tried. -/
def fault? (address : String) : Option StreamFault :=
  match portText? address.toList with
  | none => some .invalidAddress
  | some port => if (port? port).isSome then none else some .invalidPort

/-- Accepts a configuration and an address that a connection can be tried with; the configuration is
looked at first. -/
def check (c : Config) (address : String) : Except Failure Unit :=
  match c.validate with
  | .error e => .error e
  | .ok () =>
    match fault? address with
    | some fault => .error (.connectFailed fault)
    | none => .ok ()

end DocWire.Address
