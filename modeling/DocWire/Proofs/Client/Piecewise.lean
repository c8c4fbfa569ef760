import DocWire.Proofs.Client.Delivery
import DocWire.Proofs.Client.Ordering
import DocWire.Proofs.Frame.Writing

/-! # Calls write their frames piece by piece

A call that sends has come as far with its frame as some answers of its peer have brought it
(`Possible.exists_stands`), and with every turn it goes on from there with the answers that the peer
gives it next (`writeOn_eq_carry`). What holds of every writing thus holds of what calls do
(`Frame.resumes`). -/

namespace DocWire

open DocWire.Frame (Answer Writing)
open DocWire.Frame.Writing (Came start)

namespace Client

variable {c : Client} {n : Nat} {s : Sending} {w : Writing} {f : Frame} {as : List Answer}
  {config : Config}

/-- Whether a call that sends stands where a writing has come to. -/
structure Stands (c : Client) (n : Nat) (s : Sending) (w : Writing) : Prop where
  stage : c.stage n = .send s
  torn : c.write.torn = w.torn
  rest : s.rest = w.rest
  size : s.size = w.frame.size
  unfinished : w.outcome = none

/-- What a call makes of the writing of its frame, once its peer has answered. -/
def carry (c : Client) (n : Nat) (s : Sending) (w : Writing) : Client :=
  let c := { c with write := { c.write with torn := w.torn } }.setStage n
    (.send { s with rest := w.rest })
  match w.outcome with
  | none => c.holdSending n { s with rest := w.rest }
  | some (.ok ()) => c.afterSending n s.waiter
  | some (.error fault) => c.failSending n s.waiter (.sendFailed fault)

theorem torn_of_came (h : Came f as w) :
    w.torn = (!w.rest.isEmpty && w.rest.length < w.frame.size) := by
  have hw := h.within
  have hl := w.length_rest
  rw [Bool.eq_iff_iff, h.torn, Bool.and_eq_true, decide_eq_true_iff, Bool.not_eq_true',
    List.isEmpty_eq_false_iff, ← List.length_pos_iff, hl, h.frame]
  omega

/-- **A turn of a call that sends goes on with the answers of its peer.** -/
theorem writeOn_eq_carry (h : (start f).Fitting as) (hs : c.Stands n s ((start f).run as)) :
    ((start f).run as).Fitting (c.peer.answers s.rest) ∧
      c.writeOn n s = { c with peer := (c.peer.write s.rest).2 }.carry n s
        (((start f).run as).run (c.peer.answers s.rest)) := by
  obtain ⟨hfit, hrest, hend⟩ := Stream.Sink.run_answersFor (s := c.peer) hs.unfinished
    hs.rest.symm (Nat.le_refl s.rest.length)
  refine ⟨hfit, ?_⟩
  have hcame := (Writing.came h).run hfit
  have hsize := hs.size
  rw [show ((start f).run as).frame = f from (Writing.came h).frame, ← hcame.frame] at hsize
  change _ = { c with peer := (c.peer.write s.rest).2 }.carry n s
    (((start f).run as).run (Stream.Sink.answersFor s.rest.length c.peer s.rest))
  have htorn := torn_of_came hcame
  generalize ((start f).run as).run (Stream.Sink.answersFor s.rest.length c.peer s.rest) = w
    at hrest hend hsize htorn ⊢
  have hwrite : Stream.Sink.writeFor s.rest.length c.peer s.rest = c.peer.write s.rest := rfl
  rw [hwrite] at hrest hend
  unfold writeOn carry sendRest
  rw [hend, htorn, ← hsize, hrest]
  generalize c.peer.write s.rest = wp
  obtain ⟨written, peer⟩ := wp
  cases written with
  | all =>
    dsimp only [Stream.Sink.ending]
    cases peer.onFlush <;> rfl
  | _ => rfl

/-- **A call that sends has come somewhere with its frame.** -/
theorem Possible.exists_stands (h : Possible config c) (hs : c.stage n = .send s) :
    ∃ f as, (start f).Fitting as ∧ c.Stands n s ((start f).run as) := by
  have hg := h.lawful.guarded
  obtain ⟨-, -, -, -, htail⟩ := h.outgoing.stream (hg.bound (hg.half_of_send hs))
  obtain ⟨m, hf, hz, -⟩ := htail.of_send hg hs
  rename_i part _ _
  obtain ⟨f, hb, -, -⟩ := exists_frame hf
  rw [hb, Frame.length_toBytes] at hz
  have hle : part.length ≤ f.size := by
    have hl := congrArg List.length hb
    rw [List.length_append, Frame.length_toBytes] at hl
    exact Nat.le_trans (Nat.le_add_right _ _) (Nat.le_of_eq hl)
  obtain ⟨as, hfit, ht, ho⟩ := Writing.exists_run hle
  have hcame := Writing.came hfit
  have hrest : s.rest = ((start f).run as).rest := by
    rw [Writing.rest_eq, hcame.frame, ht, ← hb, List.drop_left]
  refine ⟨f, as, hfit, hs, ?_, hrest, ?_, ho⟩
  · rw [(hg.sender hs).2.2, torn_of_came hcame, hrest, hz, hcame.frame]
    rfl
  · rw [hz, hcame.frame]
    rfl

end Client

/-- How the writing of a frame goes, whatever the sink answers. The sink is offered the bytes of the
frame behind those it has taken, in pieces of which none is empty, as long as bytes are left. Every
accepting call moves a byte at least, so the writing ends within as many settled calls as the frame
has bytes, and one more.

The frame counts as half written exactly while some of its bytes are out, but not all, and the
writing succeeds exactly if all are out and flushed. A call that has come as far with its frame goes
on like this, with what its peer answers (`carried`). -/
structure Frame.Resumes (f : Frame) (as : List Answer) : Prop where
  offered : ((start f).run as).offer.flatten =
    (f.header.encode ++ f.payload).drop (Answer.total as)
  filled : ∀ piece ∈ ((start f).run as).offer, piece ≠ []
  asked : Answer.total as < 6 + f.payload.length → ((start f).run as).offer ≠ []
  calls : as.countP Answer.accepts ≤ 6 + f.payload.length
  ends : 6 + f.payload.length < as.countP Answer.settles → ((start f).run as).outcome.isSome
  torn : ((start f).run as).torn = true ↔
    0 < Answer.total as ∧ Answer.total as < 6 + f.payload.length
  succeeds : ((start f).run as).outcome = some (.ok ()) ↔
    Answer.total as = 6 + f.payload.length ∧ .flushes ∈ as
  carried : ∀ (c : Client) n s, c.Stands n s ((start f).run as) →
    (start f).Fitting (as ++ c.peer.answers s.rest) ∧
      c.writeOn n s = { c with peer := (c.peer.write s.rest).2 }.carry n s
        ((start f).run (as ++ c.peer.answers s.rest))

/-- **The writing of a frame is resumed where it stands, and comes to an end.** -/
theorem Frame.resumes {f : Frame} {as : List Answer} (h : (start f).Fitting as) :
    f.Resumes as := by
  have hc := Writing.came h
  have ht := hc.taken
  have hsize : f.size = 6 + f.payload.length := rfl
  refine ⟨?_, fun piece => ne_nil_of_mem_piecesFrom, fun hl => ?_, ?_, fun hl => ?_, ?_, ?_,
    fun c n s hs => ?_⟩
  · rw [← ht]
    exact (Writing.rest_eq _).trans (by rw [hc.frame, toBytes])
  · refine Writing.offer_ne_nil ?_
    rw [hc.frame, ht]
    exact hl
  · have hle := hc.calls.trans hc.within
    rwa [hsize] at hle
  · by_contra ho
    have hs := hc.settled
    rw [if_neg ho] at hs
    have hle := hc.calls.trans hc.within
    omega
  · rw [← ht]
    exact hc.torn
  · rw [← ht]
    exact hc.returned
  · rw [Writing.fitting_append, Writing.run_append]
    exact ⟨⟨h, (Client.writeOn_eq_carry h hs).1⟩, (Client.writeOn_eq_carry h hs).2⟩

/-- A client whose peer blocks after five bytes of a ping. -/
def Client.halted : Client :=
  (initial .default).performAll
    [.start .connect, .feed [.chunk ([0, 1, 1] ++ List.replicate 16 7)],
      .change ⟨some (some 5), none, none, none, none⟩, .start (.operation .ping)]

/-- A frame of eight bytes: three are taken, then the sink blocks; four more, across the end of the
header; and the last one. The ping of a client that is halted stands somewhere on such a way. -/
theorem Frame.resumes_halted :
    ((start ⟨⟨4, 1, 1⟩, [0xa1, 0x70]⟩).Fitting
        [.takes 3, .waits, .takes 4, .takes 1, .waits, .flushes] ∧
      Frame.Resumes ⟨⟨4, 1, 1⟩, [0xa1, 0x70]⟩
        [.takes 3, .waits, .takes 4, .takes 1, .waits, .flushes]) ∧
    ∃ s f as, Client.halted.Stands 1 s ((start f).run as) ∧ f.Resumes as := by
  refine ⟨⟨by decide +kernel, Frame.resumes (by decide +kernel)⟩, ?_⟩
  have hs : ∃ s, Client.halted.stage 1 = .send s := by
    have hx : (match Client.halted.stage 1 with | .send _ => true | _ => false) = true := by
      decide +kernel
    split at hx
    next s hs => exact ⟨s, hs⟩
    next => cases hx
  obtain ⟨s, hs⟩ := hs
  obtain ⟨f, as, hfit, hx⟩ := (Client.reachable_performAll _ _).possible.exists_stands hs
  exact ⟨s, f, as, hx, Frame.resumes hfit⟩

end DocWire
