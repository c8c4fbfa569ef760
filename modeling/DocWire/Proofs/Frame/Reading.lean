import DocWire.Frame.Reader
import DocWire.Proofs.Frame.Cutting

/-! # Reading keeps to the grammar

A stream of chunks ends, fails or stays open (`Ending`). Asking for frames one by one gives the
frames that all its bytes begin with, in whatever chunks they come; what is asked for next is told by
the bytes behind them and by how the stream goes on (`reads_frames`). A call reads only while the
bytes at hand decide nothing (`Call`). -/

namespace DocWire.Frame

open DocWire.Stream

/-- How a stream goes on behind its chunks. -/
inductive Ending where
  | open
  | ended (more : List Sent)
  | failed (text : String) (more : List Sent)

namespace Ending

/-- What lies behind the chunks. -/
def sent : Ending → List Sent
  | .open => []
  | ended more => .ending :: more
  | failed text more => .fault text :: more

/-- The stream of some chunks with this ending. -/
def stream (e : Ending) (chunks : List (List UInt8)) : Source := ⟨chunks.map .chunk ++ e.sent⟩

/-- The answer when all bytes have come and no frame begins, nor a header out of bounds. -/
def answer (rest : List UInt8) : Ending → Next
  | .open => .waiting
  | ended _ => if rest = [] then .finished else .failed (.receiveFailed .endInsideFrame)
  | failed text _ => .failed (.receiveFailed (.reported text))

/-- What a read finds when no bytes are left. -/
def arrival : Ending → Arrival
  | .open => .waiting
  | ended _ => .ended
  | failed text _ => .failed text

theorem read_stream (e : Ending) (chunks : List (List UInt8)) (n : Nat) :
    (∃ bs chunks', (e.stream chunks).read n = (.bytes bs, e.stream chunks') ∧
        bs ++ chunks'.flatten = chunks.flatten) ∨
      chunks.flatten = [] ∧ ((e.stream chunks).read n).1 = e.arrival := by
  unfold stream Source.read
  induction chunks with
  | nil =>
    right
    cases e <;> exact ⟨rfl, rfl⟩
  | cons c chunks ih =>
    cases c with
    | nil => exact ih
    | cons b c =>
      left
      refine ⟨(b :: c).take n, (b :: c).drop n :: chunks, rfl, ?_⟩
      rw [List.flatten_cons, List.flatten_cons, ← List.append_assoc, List.take_append_drop]

end Ending

namespace Buffer

variable {b b' : Buffer} {s s' : Source} {e : Ending} {chunks : List (List UInt8)}
  {limit : UInt32} {out : Next × Buffer × Source}

/-- One call for a frame, read by read. The list holds the bytes at hand at each read. -/
inductive Call : Buffer → Source → List (List UInt8) → Next × Buffer × Source → Prop
  | frame {b b' : Buffer} {s : Source} {f : Frame} (hc : b.cut = (.frame f, b')) :
      Call b s [] (.frame f, b', s)
  | refused {b b' : Buffer} {s : Source} {x : DecodeFault} (hc : b.cut = (.refused x, b')) :
      Call b s [] (.failed (.decodeFailed x), b', s)
  | bytes {b b' : Buffer} {s s' : Source} {bs : List UInt8} {reads : List (List UInt8)}
      {out : Next × Buffer × Source} (hc : b.cut = (.starved, b'))
      (hr : s.read readSize = (.bytes bs, s')) (hx : Call (b'.append bs) s' reads out) :
      Call b s (b.held :: reads) out
  | ended {b b' : Buffer} {s s' : Source} (hc : b.cut = (.starved, b'))
      (hr : s.read readSize = (.ended, s')) : Call b s [b.held]
      (if b'.hasPartial then .failed (.receiveFailed .endInsideFrame) else .finished, b', s')
  | failed {b b' : Buffer} {s s' : Source} {text : String} (hc : b.cut = (.starved, b'))
      (hr : s.read readSize = (.failed text, s')) :
      Call b s [b.held] (.failed (.receiveFailed (.reported text)), b', s')
  | waiting {b b' : Buffer} {s s' : Source} (hc : b.cut = (.starved, b'))
      (hr : s.read readSize = (.waiting, s')) : Call b s [b.held] (.waiting, b', s')

/-- Some calls in a row: their answers, and the state behind them. -/
def calls (b : Buffer) (s : Source) : Nat → List Next × Buffer × Source
  | 0 => ([], b, s)
  | n + 1 => ((b.next s).1 :: ((b.next s).2.1.calls (b.next s).2.2 n).1,
      ((b.next s).2.1.calls (b.next s).2.2 n).2)

/-- What a call on a stream of chunks comes to, by all the bytes that are at hand or unread. -/
inductive Takes (b : Buffer) (chunks : List (List UInt8)) (e : Ending) :
    Next × Buffer × Source → Prop
  | frame {f : Frame} {b' : Buffer} {chunks' : List (List UInt8)} (hf : f.Legal b.limit)
      (hs : b'.Sound) (hl : b'.limit = b.limit)
      (hb : b.held ++ chunks.flatten = f.toBytes ++ (b'.held ++ chunks'.flatten)) :
      Takes b chunks e (.frame f, b', e.stream chunks')
  | refused {x : DecodeFault} {b' : Buffer} {s' : Source}
      (hr : Refused b.limit (b.held ++ chunks.flatten) x) (hc : b'.cut = (.refused x, b')) :
      Takes b chunks e (.failed (.decodeFailed x), b', s')
  | stopped {b' : Buffer} {s' : Source} (hd : ¬ Decided b.limit (b.held ++ chunks.flatten)) :
      Takes b chunks e (e.answer (b.held ++ chunks.flatten), b', s')

theorem hasPartial_eq_false : b.hasPartial = false ↔ b.held = [] := by
  unfold hasPartial held
  cases hh : b.header with
  | none => simp
  | some h =>
    have hl := h.length_encode
    simp only [Option.isSome_some, Bool.or_true, Bool.true_eq_false, Option.map_some,
      Option.getD_some, List.append_eq_nil_iff, false_iff, not_and]
    intro hn
    rw [hn] at hl
    cases hl

/-- A buffer that has no frame to give answers by what a read finds. -/
theorem next_of_starved (hc : b.cut = (.starved, b')) (s : Source) : b.next s =
    match s.read readSize with
    | (.bytes bs, s') => (b'.append bs).next s'
    | (.ended, s') =>
      if b'.hasPartial then (.failed (.receiveFailed .endInsideFrame), b', s')
      else (.finished, b', s')
    | (.failed text, s') => (.failed (.receiveFailed (.reported text)), b', s')
    | (.waiting, s') => (.waiting, b', s') := by
  rw [next, hc]
  dsimp only
  split <;> rename_i hr <;> rw [hr]

/-- **The function makes the calls that the steps describe**, and a call reads only while the bytes
at hand decide nothing. -/
theorem call_next (hs : b.Sound) (s : Source) : ∃ reads, b.Call s reads (b.next s) ∧
    (∀ data ∈ reads, ¬ Decided b.limit data) ∧ (b.next s).2.1.Sound ∧
    (b.next s).2.1.limit = b.limit := by
  induction hu : s.unread using Nat.strongRecOn generalizing b s with
  | ind u ih =>
    have hx := hs.cuts
    rcases hc : b.cut with ⟨f | _ | x, b'⟩
    · rw [hc] at hx
      rw [next, hc]
      cases hx with
      | frame hf hb hl hn => exact ⟨[], .frame hc, nofun, sound_of_no_header hn, hl⟩
    · rw [hc] at hx
      rw [next_of_starved hc]
      cases hx with
      | starved hd hb hl hs' _ =>
        have hm : ∀ data ∈ [b.held], ¬ Decided b.limit data := by
          intro data hm
          rwa [List.mem_singleton.1 hm]
        rcases hr : s.read readSize with ⟨bs | _ | text | _, s'⟩
        · obtain ⟨hn, hp⟩ := Source.unread_read hr
          have hz := List.length_pos_iff.2 (hp (by decide))
          obtain ⟨reads, hx, hr', hs'', hl'⟩ := ih s'.unread (by omega)
            (sound_append hs' bs) s' rfl
          have hl'' : (b'.append bs).limit = b.limit := hl
          rw [hl''] at hr' hl'
          refine ⟨b.held :: reads, .bytes hc hr hx, fun data hm => ?_, hs'', hl'⟩
          rcases List.mem_cons.1 hm with rfl | hm
          · exact hd
          · exact hr' data hm
        · have hx := Call.ended hc hr
          dsimp only
          split
          next hp =>
            rw [if_pos hp] at hx
            exact ⟨_, hx, hm, hs', hl⟩
          next hp =>
            rw [if_neg hp] at hx
            exact ⟨_, hx, hm, hs', hl⟩
        · exact ⟨_, .failed hc hr, hm, hs', hl⟩
        · exact ⟨_, .waiting hc hr, hm, hs', hl⟩
    · rw [hc] at hx
      rw [next, hc]
      cases hx with
      | refused hr => exact ⟨[], .refused hc, nofun, hs, rfl⟩

/-- With no bytes left to read, what is at hand stays undecided. -/
theorem Sound.stopped (hs : b.Sound) (hc : b.cut = (.starved, b')) (he : s = e.stream chunks)
    (hr : ∀ bs s', s.read readSize ≠ (.bytes bs, s')) :
    ¬ Decided b.limit (b.held ++ chunks.flatten) ∧ b'.held = b.held ++ chunks.flatten ∧
      (s.read readSize).1 = e.arrival := by
  have hx := hs.cuts
  rw [hc] at hx
  cases hx with
  | starved hd hb hl hs' _ =>
    rcases e.read_stream chunks readSize with ⟨bs, chunks', hr', -⟩ | ⟨hn, ha⟩
    · exact absurd (he ▸ hr') (hr _ _)
    · rw [hn, List.append_nil]
      exact ⟨hd, hb, he ▸ ha⟩

/-- **A call on a stream gives the frame that all its bytes begin with**, if they do. -/
theorem Call.takes {reads : List (List UInt8)} (hx : Call b s reads out) (hs : b.Sound)
    (he : s = e.stream chunks) : Takes b chunks e out := by
  induction hx generalizing chunks with
  | @frame b b' s f hc =>
    have hx := hs.cuts
    rw [hc] at hx
    cases hx with
    | frame hf hb hl hn =>
      subst he
      refine .frame hf (sound_of_no_header hn) hl ?_
      rw [hb, List.append_assoc]
  | @refused b b' s x hc =>
    have hx := hs.cuts
    rw [hc] at hx
    cases hx with
    | refused hr => exact .refused (hr.append _) hc
  | @bytes b b' s s' bs reads out hc hr _ ih =>
    have hx := hs.cuts
    rw [hc] at hx
    cases hx with
    | starved _ hb hl hs' _ =>
      rcases e.read_stream chunks readSize with ⟨bs', chunks', hr', hj⟩ | ⟨-, hr'⟩
      · rw [he, hr'] at hr
        cases hr
        have hh : (b'.append bs).held ++ chunks'.flatten = b.held ++ chunks.flatten := by
          rw [held_append, hb, ← hj, List.append_assoc]
        have hl' : (b'.append bs).limit = b.limit := hl
        have hi := ih (sound_append hs' _) rfl
        cases hi with
        | frame hf hs'' hl'' hb' => exact .frame (hl' ▸ hf) hs'' (hl''.trans hl') (hh ▸ hb')
        | refused hr hc' => exact .refused (hh ▸ hl' ▸ hr) hc'
        | stopped hd => exact hh ▸ .stopped (hh ▸ hl' ▸ hd)
      · rw [← he, hr] at hr'
        cases e <;> cases hr'
  | @ended b b' s s' hc hr =>
    obtain ⟨hd, hb, ha⟩ := hs.stopped hc he (by rw [hr]; nofun)
    rw [hr] at ha
    cases e with
    | ended more =>
      have hx : Takes b chunks (.ended more)
          ((Ending.ended more).answer (b.held ++ chunks.flatten), b', s') := .stopped hd
      unfold Ending.answer at hx
      rw [← hb] at hx
      cases hp : b'.hasPartial with
      | true =>
        have hn : b'.held ≠ [] := fun hn => by
          rw [hasPartial_eq_false.2 hn] at hp
          cases hp
        rw [if_neg hn] at hx
        exact hx
      | false =>
        rw [if_pos (hasPartial_eq_false.1 hp)] at hx
        exact hx
    | «open» => cases ha
    | failed text more => cases ha
  | @failed b b' s s' text hc hr =>
    obtain ⟨hd, hb, ha⟩ := hs.stopped hc he (by rw [hr]; nofun)
    rw [hr] at ha
    cases e with
    | failed text more =>
      cases ha
      exact .stopped hd
    | «open» => cases ha
    | ended more => cases ha
  | @waiting b b' s s' hc hr =>
    obtain ⟨hd, hb, ha⟩ := hs.stopped hc he (by rw [hr]; nofun)
    rw [hr] at ha
    cases e with
    | «open» => exact .stopped hd
    | ended more => cases ha
    | failed text more => cases ha

theorem takes_next (hs : b.Sound) (e : Ending) (chunks : List (List UInt8)) :
    b.Takes chunks e (b.next (e.stream chunks)) := by
  obtain ⟨reads, hx, -⟩ := call_next hs (e.stream chunks)
  exact hx.takes hs rfl

/-! ### Calls in a row -/

theorem sound_calls (hs : b.Sound) (s : Source) (n : Nat) :
    (b.calls s n).2.1.Sound ∧ (b.calls s n).2.1.limit = b.limit := by
  induction n generalizing b s with
  | zero => exact ⟨hs, rfl⟩
  | succ n ih =>
    obtain ⟨-, -, -, hs', hl⟩ := call_next hs s
    obtain ⟨hx, hl'⟩ := ih hs' (b.next s).2.2
    exact ⟨hx, hl'.trans hl⟩

theorem calls_refused {x : DecodeFault} (hc : b.cut = (.refused x, b)) (s : Source) (n : Nat) :
    b.calls s n = (List.replicate n (.failed (.decodeFailed x)), b, s) := by
  have hn : b.next s = (.failed (.decodeFailed x), b, s) := by
    rw [next, hc]
  induction n with
  | zero => rfl
  | succ n ih =>
    rw [calls, hn, ih]
    rfl

/-- What is answered when all frames have been given. -/
def Last (limit : UInt32) (rest : List UInt8) (e : Ending) (last : Next) (b : Buffer) : Prop :=
  (∃ x, Refused limit rest x ∧ last = .failed (.decodeFailed x) ∧ b.cut = (.refused x, b)) ∨
    (∀ x, ¬ Refused limit rest x) ∧ last = e.answer rest

/-- **As many calls as there are frames give the frames**, and one more tells what is behind them. -/
theorem calls_spec {frames : List Frame} {rest : List UInt8} (hs : b.Sound) (e : Ending)
    (hj : Splits b.limit (b.held ++ chunks.flatten) frames rest) : ∃ last b' s',
    b.calls (e.stream chunks) (frames.length + 1) = (frames.map .frame ++ [last], b', s') ∧
      Last b.limit rest e last b' := by
  induction frames generalizing b chunks with
  | nil =>
    have hr : rest = b.held ++ chunks.flatten := hj.joined
    have hx := takes_next hs e chunks
    rw [List.length_nil, Nat.zero_add, calls]
    revert hx
    generalize b.next (e.stream chunks) = out
    intro hx
    refine ⟨out.1, out.2.1, out.2.2, rfl, ?_⟩
    rw [hr]
    cases hx with
    | frame hf hs' hl hb => exact absurd (hr.trans hb) (hj.last _ _ hf)
    | refused hr hc => exact .inl ⟨_, hr, rfl, hc⟩
    | stopped hd => exact .inr ⟨fun x hr => hd (.inr ⟨x, hr⟩), rfl⟩
  | cons f frames ih =>
    obtain ⟨more, hb, hj'⟩ := hj.tail
    have hf := hj.legal f List.mem_cons_self
    have hx := takes_next hs e chunks
    rw [List.length_cons, calls]
    revert hx
    generalize b.next (e.stream chunks) = out
    intro hx
    cases hx with
    | @frame g b' chunks' hg hs' hl hb' =>
      obtain ⟨rfl, rfl⟩ := hf.append_inj hg (hb.symm.trans hb')
      rw [← hl] at hj' ⊢
      obtain ⟨last, b'', s'', he, hz⟩ := ih hs' hj'
      refine ⟨last, b'', s'', ?_, hz⟩
      dsimp only
      rw [he]
      rfl
    | refused hr hc => exact absurd hb (hr.ne_toBytes hf)
    | stopped hd => exact absurd (.inl ⟨f, more, hf, hb⟩) hd

/-! ### Calls that wait -/

theorem readFront_append {n : Nat} {sent sent' : List Sent} {a : Arrival}
    (hr : Source.readFront n sent = (a, sent')) (more : List Sent) :
    Source.readFront n (sent ++ more) =
      if a = .waiting then Source.readFront n more else (a, sent' ++ more) := by
  induction sent with
  | nil =>
    cases hr
    rfl
  | cons x sent ih =>
    cases x with
    | chunk c =>
      cases c with
      | nil => exact ih hr
      | cons b c =>
        cases hr
        rfl
    | ending =>
      cases hr
      rfl
    | fault text =>
      cases hr
      rfl

theorem read_feed {n : Nat} {a : Arrival} (hr : s.read n = (a, s')) (more : List Sent) :
    (s.feed more).read n = if a = .waiting then Source.read ⟨more⟩ n else (a, s'.feed more) := by
  unfold Source.read at hr
  obtain ⟨ha, rfl⟩ := Prod.mk.inj hr
  have hx := readFront_append (Prod.ext ha rfl) more
  unfold Source.read Source.feed
  rw [hx]
  by_cases hw : a = .waiting
  · rw [if_pos hw, if_pos hw]
  · rw [if_neg hw, if_neg hw]

/-- A read that has to wait has passed over all that was there. -/
theorem eq_quiet_of_waiting {n : Nat} (hr : s.read n = (.waiting, s')) : s' = .quiet := by
  have hf : ∀ sent, (Source.readFront n sent).1 = .waiting → (Source.readFront n sent).2 = [] := by
    intro sent hw
    induction sent with
    | nil => rfl
    | cons x sent ih =>
      cases x with
      | chunk c =>
        cases c with
        | nil => exact ih hw
        | cons b c => cases hw
      | ending => cases hw
      | fault text => cases hw
  unfold Source.read at hr
  obtain ⟨ha, rfl⟩ := Prod.mk.inj hr
  exact congrArg Source.mk (hf _ ha)

/-- **A call that waits goes on as if all had been there**, when more has come. -/
theorem next_feed (hs : b.Sound) (hw : b.next s = (.waiting, b', s')) (more : List Sent) :
    b.next (s.feed more) = b'.next (s'.feed more) := by
  induction hu : s.unread using Nat.strongRecOn generalizing b s with
  | ind u ih =>
    have hx := hs.cuts
    rcases hc : b.cut with ⟨f | _ | x, b₁⟩
    · rw [next, hc] at hw
      cases hw
    · rw [hc] at hx
      cases hx with
      | starved _ hb hl hs' hc' =>
        rw [next_of_starved hc] at hw ⊢
        rcases hr : s.read readSize with ⟨bs | _ | text | _, s₁⟩
        · obtain ⟨hn, hp⟩ := Source.unread_read hr
          have hz := List.length_pos_iff.2 (hp (by decide))
          rw [hr] at hw
          rw [read_feed hr more, if_neg nofun]
          exact ih s₁.unread (by omega) (sound_append hs' _) hw rfl
        · rw [hr] at hw
          dsimp only at hw
          split at hw <;> cases hw
        · rw [hr] at hw
          cases hw
        · rw [hr] at hw
          cases hw
          obtain rfl := eq_quiet_of_waiting hr
          rw [next_of_starved hc', read_feed hr more, if_pos rfl]
          rfl
    · rw [next, hc] at hw
      cases hw

/-! ### The whole contract -/

/-- What holds of the calls on a stream of chunks, if its bytes split into `frames` and `rest`. The
frames are given one by one. Then a header out of bounds is refused, now and for ever and without
reading; else the answer follows from how the stream goes on. No call reads while the bytes at hand
decide its answer, and a call that waits goes on with what comes later as if all had been there. -/
structure Reads (limit : UInt32) (chunks : List (List UInt8)) (e : Ending) (frames : List Frame)
    (rest : List UInt8) : Prop where
  split : Splits limit chunks.flatten frames rest
  answers : ∃ last b s, (empty limit).calls (e.stream chunks) (frames.length + 1) =
      (frames.map .frame ++ [last], b, s) ∧
    (∀ x, Refused limit rest x → last = .failed (.decodeFailed x) ∧
      ∀ n, b.Call s [] (last, b, s) ∧ b.calls s n = (List.replicate n last, b, s)) ∧
    ((∀ x, ¬ Refused limit rest x) → last = e.answer rest)
  frugal : ∀ n b s, ((empty limit).calls (e.stream chunks) n).2 = (b, s) →
    ∃ reads, b.Call s reads (b.next s) ∧ ∀ data ∈ reads, ¬ Decided limit data
  resumes : ∀ n b s b' s' more, ((empty limit).calls (e.stream chunks) n).2 = (b, s) →
    b.next s = (.waiting, b', s') → b.next (s.feed more) = b'.next (s'.feed more)

/-- **Reading refines the grammar, whatever the chunks and however the stream goes on.** -/
theorem reads_frames (limit : UInt32) (chunks : List (List UInt8)) (e : Ending) :
    ∃ frames rest, Reads limit chunks e frames rest := by
  have hs := sound_empty limit
  obtain ⟨frames, rest, hj⟩ := exists_splits limit chunks.flatten
  refine ⟨frames, rest, hj, ?_, ?_, ?_⟩
  · obtain ⟨last, b, s, he, hl⟩ := calls_spec hs e hj
    refine ⟨last, b, s, he, fun x hr => ?_, fun hn => ?_⟩
    · rcases hl with ⟨y, hr', rfl, hc⟩ | ⟨hn, -⟩
      · obtain rfl := hr.unique hr'
        exact ⟨rfl, fun n => ⟨.refused hc, calls_refused hc s n⟩⟩
      · exact absurd hr (hn x)
    · rcases hl with ⟨y, hr, -⟩ | ⟨-, hl⟩
      · exact absurd hr (hn y)
      · exact hl
  · intro n b s hx
    obtain ⟨hs', hl⟩ := sound_calls hs (e.stream chunks) n
    rw [hx] at hs' hl
    obtain ⟨reads, hc, hd, -⟩ := call_next hs' s
    dsimp only at hl
    rw [hl] at hd
    exact ⟨reads, hc, hd⟩
  · intro n b s b' s' more hx hw
    obtain ⟨hs', -⟩ := sound_calls hs (e.stream chunks) n
    rw [hx] at hs'
    exact next_feed hs' hw more

end Buffer

end DocWire.Frame
