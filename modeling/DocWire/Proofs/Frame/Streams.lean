import DocWire.Proofs.Frame.Reading

/-! # Streams that grow

Whatever has been sent is a stream of some chunks with some ending (`Ending.exists_stream`), and in one
way only. What is sent later goes on with the chunks as long as the stream is open, and changes
nothing that can be read once it has ended or failed (`Ending.exists_feed`). A call that waits has
taken all chunks in (`Sound.waits`). -/

namespace DocWire.Frame

open DocWire.Stream

namespace Ending

/-- **Every stream has its chunks and its ending.** -/
theorem exists_stream (s : Source) : ∃ (e : Ending) (chunks : List (List UInt8)),
    s = e.stream chunks := by
  obtain ⟨sent⟩ := s
  induction sent with
  | nil => exact ⟨.open, [], rfl⟩
  | cons x sent ih =>
    cases x with
    | chunk c =>
      obtain ⟨e, chunks, h⟩ := ih
      exact ⟨e, c :: chunks, congrArg (fun s : Source => Source.mk (.chunk c :: s.sent)) h⟩
    | ending => exact ⟨ended sent, [], rfl⟩
    | fault text => exact ⟨failed text sent, [], rfl⟩

/-- A stream has no other chunks and no other ending. -/
theorem stream_inj {e e' : Ending} {chunks chunks' : List (List UInt8)}
    (h : e.stream chunks = e'.stream chunks') : e = e' ∧ chunks = chunks' := by
  unfold stream at h
  replace h := Source.mk.inj h
  induction chunks generalizing chunks' with
  | nil =>
    cases chunks' with
    | nil => cases e <;> cases e' <;> cases h <;> exact ⟨rfl, rfl⟩
    | cons c chunks' => cases e <;> cases h
  | cons c chunks ih =>
    cases chunks' with
    | nil => cases e' <;> cases h
    | cons c' chunks' =>
      obtain ⟨hc, hs⟩ := List.cons.inj h
      obtain ⟨he, rfl⟩ := ih hs
      cases hc
      exact ⟨he, rfl⟩

/-- **What comes later goes on with the chunks, if the stream is still open.** -/
theorem exists_feed (e : Ending) (more : List Sent) : ∃ (e' : Ending) (added : List (List UInt8)),
    (∀ chunks, (e.stream chunks).feed more = e'.stream (chunks ++ added)) ∧
      (e ≠ .open → e' ≠ .open ∧ added = []) := by
  cases e with
  | «open» =>
    obtain ⟨e', added, h⟩ := exists_stream ⟨more⟩
    have hm : more = added.map .chunk ++ e'.sent := Source.mk.inj h
    refine ⟨e', added, fun chunks => ?_, fun hx => absurd rfl hx⟩
    simp [stream, Source.feed, sent, hm]
  | ended sent =>
    exact ⟨ended (sent ++ more), [], fun chunks => by simp [stream, Source.feed, Ending.sent],
      fun _ => ⟨by simp, rfl⟩⟩
  | failed text sent =>
    exact ⟨failed text (sent ++ more), [], fun chunks => by
      simp [stream, Source.feed, Ending.sent], fun _ => ⟨by simp, rfl⟩⟩

theorem length_le_unread (e : Ending) (chunks : List (List UInt8)) :
    chunks.flatten.length ≤ (e.stream chunks).unread := by
  have hc : chunks.flatten = (chunks.map Sent.chunk).flatMap Sent.bytes := by
    rw [List.flatMap_map]
    exact List.flatMap_id.symm
  unfold stream Source.unread Source.bytes
  rw [List.flatMap_append, List.length_append, hc]
  exact Nat.le_add_right _ _

end Ending

namespace Buffer

variable {b b' : Buffer} {s s' : Source} {e : Ending} {chunks : List (List UInt8)}
  {reads : List (List UInt8)} {out : Next × Buffer × Source}

/-- A header that has been taken weighs less than its bytes. -/
theorem length_held_le (b : Buffer) : b.held.length ≤ Header.size * b.weight := by
  rw [length_held, Header.size]
  unfold weight size
  split <;> omega

/-- A call that waits has all the bytes at hand, and they decide nothing. -/
theorem Call.waits (hx : Call b s reads out) (hs : b.Sound) (he : s = e.stream chunks)
    (hw : out.1 = .waiting) : e = .open ∧ ¬ Decided b.limit (b.held ++ chunks.flatten) ∧
      out.2.1.held = b.held ++ chunks.flatten ∧ out.2.2 = .quiet := by
  induction hx generalizing chunks with
  | frame => cases hw
  | refused => cases hw
  | @bytes b b' s s' bs reads out hc hr _ ih =>
    have hx := hs.cuts
    rw [hc] at hx
    cases hx with
    | starved _ hb hl hs' _ =>
      rcases e.read_stream chunks readSize with ⟨bs', chunks', hr', hj⟩ | ⟨-, hr'⟩
      · rw [he, hr'] at hr
        cases hr
        have hh : (b'.append bs).held ++ chunks'.flatten = b.held ++ chunks.flatten := by
          rw [held_append, hb, ← hj, List.append_assoc]
        have hl' : (b'.append bs).limit = b.limit := hl
        have hi := ih (sound_append hs' _) rfl hw
        rwa [hh, hl'] at hi
      · rw [← he, hr] at hr'
        cases e <;> cases hr'
  | ended =>
    dsimp only at hw
    split at hw <;> cases hw
  | failed => cases hw
  | @waiting b b' s s' hc hr =>
    obtain ⟨hd, hb, ha⟩ := hs.stopped hc he (by rw [hr]; nofun)
    rw [hr] at ha
    refine ⟨?_, hd, hb, eq_quiet_of_waiting hr⟩
    cases e with
    | «open» => rfl
    | ended more => cases ha
    | failed text more => cases ha

/-- **A call waits only for more of an open stream**, with all that has come at hand. -/
theorem Sound.waits (hs : b.Sound) (hw : b.next (e.stream chunks) = (.waiting, b', s')) :
    e = .open ∧ ¬ Decided b.limit (b.held ++ chunks.flatten) ∧
      b'.held = b.held ++ chunks.flatten ∧ s' = e.stream [] ∧ b'.Sound ∧ b'.limit = b.limit := by
  obtain ⟨reads, hx, -, hs', hl⟩ := call_next hs (e.stream chunks)
  rw [hw] at hx hs' hl
  obtain ⟨rfl, hd, hb, hq⟩ := hx.waits hs rfl rfl
  exact ⟨rfl, hd, hb, hq, hs', hl⟩

end Buffer

end DocWire.Frame
