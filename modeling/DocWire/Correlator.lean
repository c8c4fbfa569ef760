import DocWire.Entries
import DocWire.Frame
import DocWire.Text.Shown

/-!
# Matching replies to requests

Every request under way is registered under its id. A registration has two ends: the slot, which is
in the registry or in the hands of whoever took it out, and the waiter. Between them is a mailbox
that takes one reply. The mailbox knows what has become of the ends: `vacant` while both are there,
`filled` once the slot was fulfilled, `orphaned` once the slot is gone without a reply, `abandoned`
once the waiter is gone.

Registrations are numbered, and the mailbox of registration `n` is the `n`-th, so an id that is
registered again has a mailbox of its own. A waiter that leaves clears its id from the registry,
whichever registration the id has there.
-/

namespace DocWire

/-- A reply as it came: its payload, and the encoding that its frame names. -/
structure Reply where
  encoding : Encoding
  payload : List UInt8
  deriving DecidableEq, Repr, Inhabited

namespace Correlator

/-- The sending end of a registration, with what a subscription is to be routed to. -/
structure Slot (κ : Type) where
  ticket : Nat
  subscription : Option κ
  deriving DecidableEq, Repr, Inhabited

/-- The waiting end of a registration. -/
structure Waiter where
  id : String
  ticket : Nat
  deriving DecidableEq, Repr, Inhabited

/-- A waiter as it is shown. -/
def Waiter.text (w : Waiter) : String := Text.record "PendingRequest" [("id", Text.quoted w.id)]

/-- What lies between the two ends of a registration. -/
inductive Mailbox where
  | vacant
  | filled (reply : Reply)
  | orphaned
  | abandoned
  deriving DecidableEq, Repr, Inhabited

end Correlator

/-- The requests under way, the mailboxes of all registrations ever made, and whether registering is
over. -/
structure Correlator (κ : Type) where
  slots : List (String × Correlator.Slot κ)
  mailboxes : List Correlator.Mailbox
  closed : Bool
  deriving DecidableEq, Repr, Inhabited

namespace Correlator

variable {κ : Type}

/-- No request under way. -/
def empty : Correlator κ := ⟨[], [], false⟩

/-- The number of requests under way. -/
def size (c : Correlator κ) : Nat := c.slots.length

/-- Whether a request is under way. -/
def contains (c : Correlator κ) (id : String) : Bool := (c.slots.lookup id).isSome

/-- The mailbox of a registration; one that was never made is abandoned. -/
def mailbox (c : Correlator κ) (ticket : Nat) : Mailbox := c.mailboxes.getD ticket .abandoned

/-- Changes the mailbox of a registration. -/
def setMailbox (c : Correlator κ) (ticket : Nat) (m : Mailbox) : Correlator κ :=
  { c with mailboxes := c.mailboxes.set ticket m }

/-- Registers a request and gives its waiter. -/
def register (c : Correlator κ) (id : String) (subscription : Option κ) :
    Except Failure (Waiter × Correlator κ) :=
  if c.closed then .error .connectionClosed
  else if c.contains id then .error (.invalidArgument (.idPending id))
  else
    let ticket := c.mailboxes.length
    .ok (⟨id, ticket⟩,
      { c with
        slots := c.slots ++ [(id, ⟨ticket, subscription⟩)]
        mailboxes := c.mailboxes ++ [.vacant] })

/-- The registry without an id. -/
def remove (c : Correlator κ) (id : String) : Correlator κ :=
  { c with slots := Entries.without id c.slots }

/-- Takes the slot of a request out of the registry. -/
def take (c : Correlator κ) (id : String) : Option (Slot κ) × Correlator κ :=
  (c.slots.lookup id, c.remove id)

/-- Puts a reply into the mailbox of a slot; tells whether a waiter is there. -/
def fulfill (c : Correlator κ) (slot : Slot κ) (reply : Reply) : Bool × Correlator κ :=
  match c.mailbox slot.ticket with
  | .vacant => (true, c.setMailbox slot.ticket (.filled reply))
  | _ => (false, c)

/-- Lets go of a slot without a reply. -/
def dropSlot (c : Correlator κ) (slot : Slot κ) : Correlator κ :=
  match c.mailbox slot.ticket with
  | .vacant => c.setMailbox slot.ticket .orphaned
  | _ => c

/-- Fulfills the request of an id; tells whether a waiter was there. -/
def deliver (c : Correlator κ) (id : String) (reply : Reply) : Bool × Correlator κ :=
  match c.take id with
  | (some slot, c) => c.fulfill slot reply
  | (none, c) => (false, c)

/-- Lets go of all slots in the registry, and registers nothing any more. Tells how many slots there
were. -/
def failAll (c : Correlator κ) : Nat × Correlator κ :=
  (c.size, c.slots.foldl (fun c entry => c.dropSlot entry.2) { c with slots := [], closed := true })

/-- A waiter leaves: its id is cleared from the registry, and its mailbox takes no reply from then
on. -/
def leave (c : Correlator κ) (w : Waiter) : Correlator κ :=
  let c := match c.take w.id with
    | (some slot, c) => c.dropSlot slot
    | (none, c) => c
  c.setMailbox w.ticket .abandoned

theorem mailbox_setMailbox (c : Correlator κ) (ticket other : Nat) (m : Mailbox) :
    (c.setMailbox ticket m).mailbox other =
      if other = ticket ∧ ticket < c.mailboxes.length then m else c.mailbox other := by
  unfold mailbox setMailbox
  rw [List.getD_eq_getElem?_getD, List.getD_eq_getElem?_getD, List.getElem?_set]
  by_cases ho : other = ticket
  · subst ho
    by_cases hl : other < c.mailboxes.length
    · simp [hl]
    · simp [hl]
  · simp [ho, Ne.symm ho]

/-- An id that was cleared is not under way, and every other id is as before. -/
theorem lookup_remove (c : Correlator κ) (id other : String) :
    (c.remove id).slots.lookup other = if other = id then none else c.slots.lookup other :=
  Entries.lookup_without c.slots id other

/-- What a waiter finds: a reply, the end of the wait, or nothing yet. -/
def outcome? (c : Correlator κ) (w : Waiter) (expired : Bool) (bound : Span) :
    Option (Except Failure Reply) :=
  match c.mailbox w.ticket with
  | .filled reply => some (.ok reply)
  | .orphaned | .abandoned => some (.error .connectionClosed)
  | .vacant => if expired then some (.error (.timeout bound)) else none

end Correlator

end DocWire
