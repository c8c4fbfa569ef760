import DocWire.Proofs.Client.Core

/-! # The moves of a client

A turn of a task can do a great deal at once: end a write, fail, begin to close and wake others. It
is a series of moves, each of which changes the stage of one task and what belongs to that change.
`Move` lists them with the conditions under which they are made, up to what the core leaves out. Only
the start of a call is none of them, as it alone makes calls more. An invariant is proved for each
move and for the start of a call, and then holds in every possible state (`Possible.induct`). -/

namespace DocWire

open DocWire.Correlator (Waiter)

/-- How a call goes on after it has closed the connection. -/
def AfterClose.EndsIn : AfterClose → Stage → Prop
  | .finish r, s => s = .done r
  | .join, s => s = .join ∨ s = .done (.ok .done)

namespace Client

/-! ### Conditions and targets of moves -/

/-- A call that has the write path has a message to send: a request, which has just been registered,
or the end of a subscription. The last client is the one in which it sets out to send it. -/
inductive Enters (c : Client) (n : Nat) : ClientMessage → Option Waiter → Client → Prop
  | request {op : Operation} {w : Waiter} {correlator : Correlator Target}
      (hs : c.stage n = .lock) (hh : c.holds (.call n) = true) (hj : c.job n = .operation op)
      (hr : c.correlator.register c.nextId (targetOf n op) = .ok (w, correlator)) :
      Enters c n (op.message w.id) (some w)
        ((({ c.useId with correlator := correlator }).record (.registered n w.id)).record
          (.sending n (op.message w.id)))
  | farewell {id : String} (hs : c.stage n = .lock) (hh : c.holds (.call n) = true)
      (hj : c.job n = .unsubscribe (some id)) :
      Enters c n (.unsubscribe id) none (c.record (.sending n (.unsubscribe id)))

/-- A call is about to send or in the middle of it. -/
inductive Sends (c : Client) (n : Nat) : Option Waiter → Client → Prop
  | atOnce {m : ClientMessage} {waiter : Option Waiter} {c₁ : Client} (he : c.Enters n m waiter c₁) :
      Sends c n waiter c₁
  | later {s : Sending} (hs : c.stage n = .send s) : Sends c n s.waiter c

/-- Why the sending of a message can fail. -/
def IsSendFault (e : Failure) : Prop :=
  (∃ fault, e = .sendFailed fault) ∨ e = .connectionClosed ∨ ∃ fault, e = .invalidArgument fault

/-- What a client comes to in which the sending of a call has failed. If this ends the connection, the
call begins to close it. -/
inductive Fails (c : Client) (n : Nat) (e : Failure) (d : Client) : Client → Prop
  | ends (hq : c.life ≠ .connected ∨ e.endsConnection = false ∧ c.stage n = .lock) :
      Fails c n e d (d.setStage n (.done (failedOutcome (c.job n) e)))
  | closes (hl : c.life = .connected) (hy : e.endsConnection = true) :
      Fails c n e d (d.setStage n (.closeLock (.finish (failedOutcome (c.job n) e)))).breakOff

/-- What a call comes to whose frame is out. -/
def afterSent (c : Client) : Option Waiter → Stage
  | some w => .await w c.requestDue
  | none => .done (.ok .done)

/-- Whether a task may find the connection open and close it. -/
def MayClose (c : Client) (k : AfterClose) : Task → Prop
  | .reader => ∃ b, c.reader = .reading b
  | .call n => c.stage n = .fresh ∧ c.job n = .disconnect ∧ k = .join

/-- Whether a task goes for the write path to shut it down. -/
def InCloseLock (c : Client) (k : AfterClose) : Task → Prop
  | .reader => c.reader = .closeLock
  | .call n => c.stage n = .closeLock k

/-- Whether a task shuts the writing half down. -/
def InShutdown (c : Client) (k : AfterClose) : Task → Prop
  | .reader => c.reader = .closeShutdown
  | .call n => c.stage n = .closeShutdown k

/-- Whether a stage holds nothing that anyone else could want: neither a place in the line, nor the
writing half, nor a waiter. -/
def IsIdleStage (s : Stage) : Prop := s = .fresh ∨ s = .join

/-- One move of a client; `quiet` is anything that the core does not tell. -/
inductive Move : Client → Client → Prop
  | quiet {c c' : Client} (h : c.core = c'.core) : Move c c'
  | tick (c : Client) (millis : Nat) : Move c { c with now := c.now + millis }
  -- The handshake.
  | connect {c : Client} {n : Nat} {bytes : List UInt8} (hs : c.stage n = .fresh)
      (hj : c.job n = .connect) (hu : c.write.half = .unused)
      (hb : c.opening = .ok bytes) :
      Move c (({ c with write := { c.write with half := .unsplit } }).setStage n
        (.handshake (.writing bytes) (c.now + c.config.connectTimeout.toMillis)))
  | shake {c : Client} {n due : Nat} {e e' : Handshake.Exchange} {source : Stream.Source}
      {peer : Stream.Sink} (hs : c.stage n = .handshake e due)
      (hr : e.run c.source c.peer = (.stopped e', source, peer)) :
      Move c (({ c with peer := peer }).setStage n (.handshake e' due))
  | establish {c : Client} {n due : Nat} {e : Handshake.Exchange} {session : Handshake.Session}
      {source : Stream.Source} {peer : Stream.Sink} (hs : c.stage n = .handshake e due)
      (hr : e.run c.source c.peer = (.done (.ok session), source, peer)) :
      Move c ((({ c with peer := peer }).accept session).setStage n
        (.done (.ok (.connected session))))
  | miss {c : Client} {n due : Nat} {e : Handshake.Exchange} {p : Handshake.Progress} {f : Failure}
      {source : Stream.Source} {peer : Stream.Sink} (hs : c.stage n = .handshake e due)
      (hr : e.run c.source c.peer = (p, source, peer))
      (hp : p = .done (.error f) ∨
        (∃ e', p = .stopped e') ∧ due ≤ c.now ∧ f = .timeout c.config.connectTimeout) :
      Move c (({ c with peer := peer }).dropStream.setStage n (.done (.error f)))
  | abandon {c : Client} {n due : Nat} {e : Handshake.Exchange}
      (hs : c.stage n = .handshake e due) : Move c (c.dropStream.setStage n .dropped)
  | refuse {c : Client} {n : Nat} {f : Failure} (hs : c.stage n = .fresh)
      (hj : c.job n = .connect) (hu : c.write.half = .unused) (hb : c.opening = .error f) :
      Move c (c.dropStream.setStage n (.done (.error f)))
  -- Calls that never ask for the write path.
  | turnDown {c : Client} {n : Nat} {op : Operation} {f : Failure} (hs : c.stage n = .fresh)
      (hj : c.job n = .operation op) (hf : op.refusal? = some f) :
      Move c (c.setStage n (.done (.error f)))
  | tooLate {c : Client} {n : Nat} {op : Operation} (hs : c.stage n = .fresh)
      (hj : c.job n = .operation op) (hl : c.life ≠ .connected) :
      Move c (c.setStage n (.done (.error .connectionClosed)))
  | leaveItAt {c : Client} {n : Nat} {o : Outcome} (hs : c.stage n = .fresh)
      (hj : ∀ op, c.job n ≠ .operation op) (ho : o = .done ∨ o = .nothing) :
      Move c (c.setStage n (.done (.ok o)))
  | waitForReader {c : Client} {n : Nat} (hs : c.stage n = .fresh) (hj : c.job n = .disconnect)
      (hl : c.life ≠ .connected) : Move c (c.setStage n .join)
  | joined {c : Client} {n : Nat} (hs : c.stage n = .join) (hr : c.reader = .ended) :
      Move c (c.setStage n (.done (.ok .done)))
  | unroute {c : Client} {n : Nat} {id : String} (hs : c.stage n = .fresh)
      (hj : c.job n = .unsubscribe (some id)) (ha : c.isAlive = true) :
      Move c { c.record (.unsubscribed id) with routes := (c.routes.unsubscribe id).2 }
  -- Sending.
  | lineUp {c : Client} {n : Nat} (hs : c.stage n = .fresh) (hl : c.life = .connected)
      (hj : (∃ op, c.job n = .operation op) ∨ ∃ id, c.job n = .unsubscribe (some id)) :
      Move c (({ c with write := c.write.acquire (.call n) }).setStage n .lock)
  | turnAway {c : Client} {n : Nat} {op : Operation} {f : Failure} (hs : c.stage n = .lock)
      (hh : c.holds (.call n) = true) (hj : c.job n = .operation op)
      (hr : c.correlator.register c.nextId (targetOf n op) = .error f) :
      Move c (c.useId.yield.setStage n (.done (.error f)))
  | pass {c : Client} {n : Nat} (hs : c.stage n = .lock) (hh : c.holds (.call n) = true)
      (hj : ∀ op, c.job n ≠ .operation op) :
      Move c (c.yield.setStage n (.done (.ok .nothing)))
  | begin {c c₁ : Client} {n : Nat} {m : ClientMessage} {waiter : Option Waiter}
      {bytes : List UInt8} (he : c.Enters n m waiter c₁) (hf : c.frameOf? m = .ok bytes)
      (hw : c.write.half = .held) :
      Move c (c₁.setStage n (.send ⟨bytes, bytes.length, waiter, c.requestDue⟩))
  | write {c : Client} {n : Nat} {s : Sending} {out rest : List UInt8}
      (hs : c.stage n = .send s) (hb : out ++ rest = s.rest) :
      Move c (({ c with peer := { c.peer with taken := c.peer.taken ++ out } }).sendRest n
        { s with rest := rest })
  | sent {c : Client} {n : Nat} {s : Sending} (hs : c.stage n = .send s) (hr : s.rest = []) :
      Move c ((c.record (.sent n c.now)).yield.setStage n (c.afterSent s.waiter))
  | fail {c c₁ c' : Client} {n : Nat} {waiter : Option Waiter} {e : Failure}
      (hs : c.Sends n waiter c₁) (he : IsSendFault e)
      (hf : c.Fails n e ((c₁.record (.unsent n e)).yield.forgetAny waiter) c') : Move c c'
  -- The wait for the reply.
  | conclude {c : Client} {n due : Nat} {w : Waiter} {r : Except Failure Reply}
      (hs : c.stage n = .await w due)
      (hr : c.correlator.outcome? w (due ≤ c.now) c.config.requestTimeout = some r) :
      Move c (c.conclude n w r)
  -- Calls that are given up.
  | dropIdle {c : Client} {n : Nat} (hs : IsIdleStage (c.stage n)) : Move c (c.setStage n .dropped)
  | dropLine {c : Client} {n : Nat} (hs : c.stage n = .lock ∨ ∃ k, c.stage n = .closeLock k) :
      Move c (({ c with write := c.write.withdraw (.call n) }).setStage n .dropped)
  | dropSend {c : Client} {n : Nat} {s : Sending} (hs : c.stage n = .send s) :
      Move c ((c.forgetAny s.waiter).yield.setStage n .dropped)
  | dropWait {c : Client} {n due : Nat} {w : Waiter} (hs : c.stage n = .await w due) :
      Move c ((c.forget w).setStage n .dropped)
  | dropShutdown {c : Client} {n : Nat} {k : AfterClose} (hs : c.stage n = .closeShutdown k) :
      Move c (({ c with write := { c.write with half := .gone } }).setStage n .dropped)
  -- Closing.
  | close {c : Client} {t : Task} {k : AfterClose} (hm : c.MayClose k t)
      (hl : c.life = .connected) : Move c (c.toCloseLock k t).breakOff
  | lineUpToClose {c : Client} {t : Task} {k : AfterClose} (hs : c.InCloseLock k t)
      (hl : c.life = .closing) : Move c { c with write := c.write.acquire t }
  | takeHalf {c : Client} {t : Task} {k : AfterClose} (hs : c.InCloseLock k t)
      (hh : c.holds t = true) (hw : c.write.half = .held) :
      Move c (({ c with
        write := ({ c.write with half := .leaving } : WritePath).release }).toShutdown k t)
  | findGone {c : Client} {t : Task} {k : AfterClose} (hs : c.InCloseLock k t)
      (hh : c.holds t = true) (hw : c.write.half ≠ .held) :
      Move c { c with write := c.write.release, life := .closed }
  | shut {c : Client} {t : Task} {k : AfterClose} (hs : c.InShutdown k t) :
      Move c { c with write := { c.write with half := .gone }, life := .closed }
  | rest {c : Client} {n : Nat} {k : AfterClose} {s : Stage}
      (hs : c.InCloseLock k (.call n) ∨ c.InShutdown k (.call n)) (hl : c.life = .closed)
      (hk : k.EndsIn s) : Move c (c.setStage n s)
  -- The reader and the client.
  | endReader {c : Client} (hl : c.life ≠ .connected ∨ c.held = false)
      (hr : c.life = .closed ∨ ∃ b, c.reader = .reading b) :
      Move c { c with
        reader := .ended
        write := if c.held then c.write else c.write.dropHalf }
  | keepReading {c : Client} {b b' : Frame.Buffer} (hr : c.reader = .reading b) :
      Move c { c with reader := .reading b' }
  | route {c : Client} {b : Frame.Buffer} (hr : c.reader = .reading b) (ha : c.isAlive = true)
      (f : Frame) : Move c (c.route f)
  | letGo {c : Client} (hs : ∀ n, (c.stage n).isOpen = false) (hh : c.held = true) :
      Move c { c with
        held := false
        write := if c.reader = .closeLock ∨ c.reader = .closeShutdown then c.write
          else c.write.dropHalf }

/-- A series of moves. -/
def Moves : Client → Client → Prop := Relation.ReflTransGen Move

namespace Moves

variable {c c₁ c' : Client}

theorem refl (c : Client) : c.Moves c := Relation.ReflTransGen.refl

theorem trans (h : c.Moves c₁) (h' : c₁.Moves c') : c.Moves c' := Relation.ReflTransGen.trans h h'

/-- Clients with the same core can be taken for each other. -/
theorem quiet (h : c.core = c'.core) : c.Moves c' := .single (.quiet h)

theorem one (h : c.Move c₁) (hq : c₁.core = c'.core) : c.Moves c' :=
  Relation.ReflTransGen.tail (.single h) (.quiet hq)

end Moves

end Client

end DocWire
