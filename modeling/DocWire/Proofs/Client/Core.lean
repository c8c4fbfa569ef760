import DocWire.Proofs.Client.Reachable

/-! # The core of a client

What a client has done and how far its calls have come does not depend on the order in which its
tasks wait for their turns, on the timers, on what the peer is about to send, nor on what the peer
would take. The core of a client leaves all of this out. Waking tasks and setting timers keep the
core, and the functions that end by waking tasks have the core of their first half. -/

namespace DocWire.Client

open DocWire.Correlator (Waiter)
open DocWire.Stream (Sink)

/-- A client without what only decides which task runs when, and how far it gets. -/
def core (c : Client) : Client :=
  { c with
    source := .quiet
    peer := { Sink.eager with taken := c.peer.taken }
    ready := []
    timers := []
    stopAsked := false
    joinable := false }

/-- The client once its write path has been left. -/
def yield (c : Client) : Client := { c with write := c.write.leave }

/-- The client once a waiter, if there is one, has left the correlator. -/
def forgetAny (c : Client) : Option Waiter → Client
  | some w => c.forget w
  | none => c

variable {c c' : Client} {n : Nat} {t : Task} {w : Waiter}

/-! ### What keeps the core -/

@[simp] theorem core_wake (c : Client) (t : Task) : (c.wake t).core = c.core := by
  unfold wake; split <;> rfl

@[simp] theorem core_wakeFirst (c : Client) (l : List Task) : (c.wakeFirst l).core = c.core := by
  cases l with
  | nil => rfl
  | cons t l => exact core_wake c t

@[simp] theorem core_clearTimer (c : Client) (n : Nat) : (c.clearTimer n).core = c.core := rfl

@[simp] theorem core_setTimer (c : Client) (n due : Nat) : (c.setTimer n due).core = c.core := by
  unfold setTimer; split <;> rfl

@[simp] theorem core_askStop (c : Client) : c.askStop.core = c.core := core_wake _ _

theorem core_foldl {α : Type} {f : Client → α → Client} (hf : ∀ c a, (f c a).core = c.core)
    (l : List α) (c : Client) : (l.foldl f c).core = c.core := by
  induction l generalizing c with
  | nil => rfl
  | cons a l ih => rw [List.foldl_cons, ih, hf]

@[simp] theorem core_wakeCalls (c : Client) (p : Stage → Bool) :
    (c.wakeCalls p).core = c.core := by
  refine core_foldl (fun c n => ?_) _ _
  split
  · exact core_wake c _
  · rfl

@[simp] theorem core_wakeDecided (c : Client) : c.wakeDecided.core = c.core := core_wakeCalls _ _

/-! ### What has the core of something simpler -/

theorem core_setStage (h : c.core = c'.core) (n : Nat) (s : Stage) :
    (c.setStage n s).core = (c'.setStage n s).core :=
  congrArg (fun d : Client => d.setStage n s) h

theorem core_setWrite (h : c.core = c'.core) (f : WritePath → WritePath) :
    ({ c with write := f c.write } : Client).core = { c' with write := f c'.write }.core :=
  congrArg (fun d : Client => { d with write := f d.write }) h

theorem core_setLife (h : c.core = c'.core) (l : Life) :
    ({ c with life := l } : Client).core = { c' with life := l }.core :=
  congrArg (fun d : Client => { d with life := l }) h

theorem core_breakOff (h : c.core = c'.core) : c.breakOff.core = c'.breakOff.core :=
  congrArg breakOff h

theorem core_yield (h : c.core = c'.core) : c.yield.core = c'.yield.core :=
  core_setWrite h WritePath.leave

theorem core_forget (h : c.core = c'.core) (w : Waiter) : (c.forget w).core = (c'.forget w).core :=
  congrArg (fun d : Client => d.forget w) h

theorem core_forgetAny (h : c.core = c'.core) (w : Option Waiter) :
    (c.forgetAny w).core = (c'.forgetAny w).core := by
  cases w with
  | none => exact h
  | some w => exact core_forget h w

@[simp] theorem core_finish (c : Client) (n : Nat) (r : Except Failure Outcome) :
    (c.finish n r).core = (c.setStage n (.done r)).core := rfl

@[simp] theorem core_release (c : Client) :
    c.release.core = { c with write := c.write.release }.core := core_wakeFirst _ _

@[simp] theorem core_leaveWritePath (c : Client) : c.leaveWritePath.core = c.yield.core := by
  unfold leaveWritePath
  rw [core_wakeFirst]
  split
  · exact core_wake _ _
  · rfl

@[simp] theorem core_withdraw (c : Client) (t : Task) :
    (c.withdraw t).core = { c with write := c.write.withdraw t }.core := by
  unfold withdraw holds WritePath.withdraw
  by_cases ht : c.write.holder = some t
  · simp [ht]
  · simp [ht]

@[simp] theorem core_leave (c : Client) (w : Waiter) : (c.leave w).core = (c.forget w).core :=
  core_wakeDecided _

@[simp] theorem core_leaveIfAny (c : Client) (w : Option Waiter) :
    (c.leaveIfAny w).core = (c.forgetAny w).core := by
  cases w with
  | none => rfl
  | some w => exact core_leave c w

/-! ### What is written down -/

@[simp] theorem journal_record (c : Client) (i : Incident) :
    (c.record i).journal = c.journal ++ [i] := rfl

@[simp] theorem journal_setStage (c : Client) (n : Nat) (s : Stage) :
    (c.setStage n s).journal = c.journal := rfl

@[simp] theorem journal_yield (c : Client) : c.yield.journal = c.journal := rfl

@[simp] theorem journal_forget (c : Client) (w : Waiter) :
    (c.forget w).journal = c.journal ++ [.left w.id] := rfl

/-! ### What the core tells -/

theorem core_stage (c : Client) (n : Nat) : c.core.stage n = c.stage n := rfl

theorem core_job (c : Client) (n : Nat) : c.core.job n = c.job n := rfl

theorem calls_eq (h : c.core = c'.core) : c.calls = c'.calls := by
  have hc := congrArg calls h
  exact hc

theorem life_eq (h : c.core = c'.core) : c.life = c'.life := by
  have hc := congrArg life h
  exact hc

theorem reader_eq (h : c.core = c'.core) : c.reader = c'.reader := by
  have hc := congrArg reader h
  exact hc

theorem requestDue_eq (h : c.core = c'.core) : c.requestDue = c'.requestDue := by
  have hc := congrArg requestDue h
  exact hc

theorem stage_eq (h : c.core = c'.core) (n : Nat) : c.stage n = c'.stage n := by
  rw [← core_stage, h, core_stage]

theorem job_eq (h : c.core = c'.core) (n : Nat) : c.job n = c'.job n := by
  rw [← core_job, h, core_job]

end DocWire.Client
