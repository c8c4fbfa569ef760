import Mathlib.Data.List.InsertIdx
import DocWire.Correlator

/-! # A mailbox that nobody uses

A registration that has come to nothing leaves its mailbox behind, so the mailboxes of all later
ones have other numbers. `laden` puts such a mailbox in as number `m`. What the operations of a
correlator do does not depend on the numbers, so they commute with it. -/

namespace DocWire.Correlator

variable {κ : Type} {m : Nat}

/-- The number of a mailbox once one more has been put in before number `m`. -/
def moved (m ticket : Nat) : Nat := if ticket < m then ticket else ticket + 1

def Waiter.moved (m : Nat) (w : Waiter) : Waiter := { w with ticket := Correlator.moved m w.ticket }

def Slot.moved (m : Nat) (s : Slot κ) : Slot κ := { s with ticket := Correlator.moved m s.ticket }

/-- The registry with the mailbox of a registration that has come to nothing as number `m`. -/
def laden (m : Nat) (k : Correlator κ) : Correlator κ :=
  { k with
    slots := k.slots.map fun e => (e.1, e.2.moved m)
    mailboxes := k.mailboxes.insertIdx m .abandoned }

theorem mailbox_laden (k : Correlator κ) (t : Nat) :
    (k.laden m).mailbox (moved m t) = k.mailbox t := by
  unfold mailbox laden moved
  rw [List.getD_eq_getElem?_getD, List.getD_eq_getElem?_getD, List.getElem?_insertIdx]
  split
  · rfl
  · rw [if_neg (by omega), if_neg (by omega), Nat.add_sub_cancel]

theorem setMailbox_laden (k : Correlator κ) (t : Nat) (x : Mailbox) :
    (k.laden m).setMailbox (moved m t) x = (k.setMailbox t x).laden m := by
  have hl : (k.mailboxes.insertIdx m .abandoned).set (moved m t) x =
      (k.mailboxes.set t x).insertIdx m .abandoned := by
    refine List.ext_getElem? fun i => ?_
    rw [List.getElem?_set, List.getElem?_insertIdx, List.getElem?_insertIdx, List.getElem?_set,
      List.getElem?_set, List.length_insertIdx, List.length_set]
    unfold moved
    grind
  unfold setMailbox laden
  rw [hl]

theorem lookup_laden (k : Correlator κ) (id : String) :
    (k.laden m).slots.lookup id = (k.slots.lookup id).map (·.moved m) := by
  unfold laden
  dsimp only
  induction k.slots with
  | nil => rfl
  | cons e l ih =>
    rw [List.map_cons, List.lookup_cons, List.lookup_cons, ih]
    cases id == e.1 <;> rfl

theorem remove_laden (k : Correlator κ) (id : String) :
    (k.laden m).remove id = (k.remove id).laden m := by
  unfold remove laden Entries.without
  rw [List.filter_map]
  rfl

theorem fulfill_laden (k : Correlator κ) (s : Slot κ) (reply : Reply) :
    (k.laden m).fulfill (s.moved m) reply =
      ((k.fulfill s reply).1, (k.fulfill s reply).2.laden m) := by
  unfold fulfill
  have hm : (k.laden m).mailbox (s.moved m).ticket = k.mailbox s.ticket := mailbox_laden k s.ticket
  rw [hm]
  cases k.mailbox s.ticket with
  | vacant => exact congrArg (Prod.mk true) (setMailbox_laden k s.ticket _)
  | _ => rfl

theorem dropSlot_laden (k : Correlator κ) (s : Slot κ) :
    (k.laden m).dropSlot (s.moved m) = (k.dropSlot s).laden m := by
  unfold dropSlot
  have hm : (k.laden m).mailbox (s.moved m).ticket = k.mailbox s.ticket := mailbox_laden k s.ticket
  rw [hm]
  cases k.mailbox s.ticket with
  | vacant => exact setMailbox_laden k s.ticket _
  | _ => rfl

theorem failAll_laden (k : Correlator κ) : (k.laden m).failAll.2 = k.failAll.2.laden m := by
  have hf : ∀ (l : List (String × Slot κ)) (k : Correlator κ),
      (l.map fun e => (e.1, e.2.moved m)).foldl (fun k e => k.dropSlot e.2) (k.laden m) =
        (l.foldl (fun k e => k.dropSlot e.2) k).laden m := by
    intro l
    induction l with
    | nil => exact fun _ => rfl
    | cons e l ih =>
      intro k
      rw [List.map_cons, List.foldl_cons, List.foldl_cons, ← ih, ← dropSlot_laden]
  exact hf k.slots { k with slots := [], closed := true }

theorem leave_laden (k : Correlator κ) (w : Waiter) :
    (k.laden m).leave (w.moved m) = (k.leave w).laden m := by
  unfold leave take
  have hl : (k.laden m).slots.lookup (w.moved m).id = (k.slots.lookup w.id).map (·.moved m) :=
    lookup_laden k w.id
  have hr : (k.laden m).remove (w.moved m).id = (k.remove w.id).laden m := remove_laden k w.id
  rw [hl, hr]
  cases k.slots.lookup w.id with
  | none => exact setMailbox_laden _ _ _
  | some s =>
    dsimp only [Option.map]
    rw [dropSlot_laden]
    exact setMailbox_laden _ _ _

theorem register_laden (k : Correlator κ) (hm : m ≤ k.mailboxes.length) (id : String)
    (sub : Option κ) : (k.laden m).register id sub =
      (k.register id sub).map fun p => (p.1.moved m, p.2.laden m) := by
  have ht : (k.mailboxes.insertIdx m .abandoned).length = moved m k.mailboxes.length := by
    rw [List.length_insertIdx, if_pos hm, moved, if_neg (by omega)]
  have hl : k.mailboxes.insertIdx m .abandoned ++ [.vacant] =
      (k.mailboxes ++ [Mailbox.vacant]).insertIdx m .abandoned := by
    refine List.ext_getElem? fun i => ?_
    rw [List.getElem?_append, List.getElem?_insertIdx, List.getElem?_insertIdx,
      List.getElem?_append, List.getElem?_append, List.length_append, List.length_insertIdx]
    grind
  have hc : (k.laden m).contains id = k.contains id := by
    unfold contains
    rw [lookup_laden, Option.isSome_map]
  unfold register
  rw [hc, show (k.laden m).closed = k.closed from rfl]
  by_cases hk : k.closed = true
  · rw [if_pos hk, if_pos hk]
    rfl
  · rw [if_neg hk, if_neg hk]
    by_cases hi : k.contains id = true
    · rw [if_pos hi, if_pos hi]
      rfl
    · rw [if_neg hi, if_neg hi]
      dsimp only [Except.map, laden]
      rw [ht, hl, List.map_append]
      rfl

theorem outcome?_laden (k : Correlator κ) (w : Waiter) (expired : Bool) (bound : Span) :
    (k.laden m).outcome? (w.moved m) expired bound = k.outcome? w expired bound := by
  unfold outcome?
  have hm : (k.laden m).mailbox (w.moved m).ticket = k.mailbox w.ticket := mailbox_laden k w.ticket
  rw [hm]

end DocWire.Correlator
