import DocWire.Handshake.Exchange
import DocWire.Proofs.Frame.Streams

/-! # The answer of the handshake on a stream

Reading the answer takes nineteen bytes off a stream and leaves the rest of it as it is, however the
bytes are cut into chunks (`readAnswer_of_le`); a stream that has fewer is read to its end
(`readAnswer_of_lt`). A wait for more is no more than that: it goes on as if all had been there
(`readAnswer_feed_stopped`). `Answered` lists what the bytes and the end of a stream come to. -/

namespace DocWire.Handshake

open DocWire.Stream (Source Sent Arrival)
open DocWire.Frame (Ending)

variable {got : List UInt8} {s s' : Source} {e : Ending} {chunks : List (List UInt8)}

/-! ### What a read makes of the rest -/

theorem readAnswer_complete (hg : Answer.size ≤ got.length) (s : Source) :
    readAnswer got s = (.done (conclude got), s) := by
  rw [readAnswer, dif_neg (by omega)]

theorem readAnswer_read (hg : got.length < Answer.size) (s : Source) : readAnswer got s =
    match s.read (Answer.size - got.length) with
    | (.bytes bs, s') => readAnswer (got ++ bs) s'
    | (.ended, s') => (.done (.error (.receiveFailed .endInsideHandshake)), s')
    | (.failed text, s') => (.done (.error (.receiveFailed (.reported text))), s')
    | (.waiting, s') => (.stopped (.reading got), s') := by
  rw [readAnswer, dif_pos hg]
  split <;> rename_i hr <;> rw [hr]

theorem length_le_of_read {n : Nat} {bs : List UInt8} (hr : s.read n = (.bytes bs, s')) :
    bs.length ≤ n := by
  have hf : ∀ sent rest, Source.readFront n sent = (.bytes bs, rest) → bs.length ≤ n := by
    intro sent rest hr
    induction sent with
    | nil => cases hr
    | cons x sent ih =>
      cases x with
      | chunk c =>
        cases c with
        | nil => exact ih hr
        | cons b c =>
          cases hr
          exact (List.length_take_le _ _)
      | ending => cases hr
      | fault text => cases hr
  obtain ⟨ha, -⟩ := Prod.mk.inj hr
  exact hf s.sent _ (Prod.ext ha rfl)

/-! ### Waiting for more -/

/-- **A wait for the answer goes on as if all had been there.** -/
theorem readAnswer_feed_stopped {x : Exchange} (h : readAnswer got s = (.stopped x, s'))
    (more : List Sent) : ∃ got', x = .reading got' ∧
      readAnswer got (s.feed more) = readAnswer got' (s'.feed more) := by
  fun_induction readAnswer got s with
  | case1 got s hg bs s₁ hr ih =>
    obtain ⟨got', hx, he⟩ := ih h
    refine ⟨got', hx, ?_⟩
    rw [readAnswer_read hg, Frame.Buffer.read_feed hr more, if_neg nofun]
    exact he
  | case2 => cases h
  | case3 => cases h
  | case4 got s hg s₁ hr =>
    cases h
    obtain rfl := Frame.Buffer.eq_quiet_of_waiting hr
    refine ⟨got, rfl, ?_⟩
    rw [readAnswer_read hg, Frame.Buffer.read_feed hr more, if_pos rfl, readAnswer_read hg]
    rfl
  | case5 => cases h

/-- An answer that has been read leaves what comes later alone. -/
theorem readAnswer_feed_done {r : Except Failure Session} (h : readAnswer got s = (.done r, s'))
    (more : List Sent) : readAnswer got (s.feed more) = (.done r, s'.feed more) := by
  fun_induction readAnswer got s with
  | case1 got s hg bs s₁ hr ih =>
    rw [readAnswer_read hg, Frame.Buffer.read_feed hr more, if_neg nofun]
    exact ih h
  | case2 got s hg s₁ hr =>
    cases h
    rw [readAnswer_read hg, Frame.Buffer.read_feed hr more, if_neg nofun]
  | case3 got s hg s₁ text hr =>
    cases h
    rw [readAnswer_read hg, Frame.Buffer.read_feed hr more, if_neg nofun]
  | case4 => cases h
  | case5 got s hg =>
    cases h
    exact readAnswer_complete (by omega) _

/-! ### On a stream of chunks -/

/-- **Nineteen bytes are read if there are as many**, and the stream goes on behind them. -/
theorem readAnswer_of_le (hg : got.length ≤ Answer.size)
    (hl : Answer.size ≤ (got ++ chunks.flatten).length) : ∃ chunks',
      readAnswer got (e.stream chunks) =
        (.done (conclude ((got ++ chunks.flatten).take Answer.size)), e.stream chunks') ∧
      chunks'.flatten = (got ++ chunks.flatten).drop Answer.size := by
  induction hu : (e.stream chunks).unread using Nat.strongRecOn generalizing got chunks with
  | ind u ih =>
    rcases Nat.lt_or_eq_of_le hg with hg' | hg'
    · rcases e.read_stream chunks (Answer.size - got.length) with
        ⟨bs, chunks', hr, hj⟩ | ⟨hn, -⟩
      · obtain ⟨hx, hp⟩ := Source.unread_read hr
        have hz := List.length_pos_iff.2 (hp (by omega))
        have hb := length_le_of_read hr
        have ha : (got ++ bs).length ≤ Answer.size := by
          rw [List.length_append]
          omega
        rw [← hj, ← List.append_assoc] at hl ⊢
        obtain ⟨chunks'', he, hd⟩ := ih _ (by omega) ha hl rfl
        refine ⟨chunks'', ?_, hd⟩
        rw [readAnswer_read hg', hr]
        exact he
      · rw [hn, List.append_nil] at hl
        omega
    · refine ⟨chunks, ?_, ?_⟩
      · rw [readAnswer_complete (by omega), ← hg', List.take_left]
      · rw [← hg', List.drop_left]

/-- What lies behind the end or the fault that a read has found. -/
def behind : Ending → Source
  | .open => .quiet
  | .ended more => ⟨.ending :: more⟩
  | .failed _ more => ⟨more⟩

theorem bytes_behind (e : Ending) : (behind e).bytes = (e.stream []).bytes := by
  cases e <;> rfl

theorem read_of_flatten_eq_nil (hn : chunks.flatten = []) (n : Nat) :
    (e.stream chunks).read n = (e.arrival, behind e) := by
  induction chunks with
  | nil => cases e <;> rfl
  | cons c chunks ih =>
    obtain ⟨rfl, hn⟩ := List.append_eq_nil_iff.1 hn
    exact ih hn

/-- What is answered when the bytes of a stream do not make up an answer. -/
def shortage (got : List UInt8) : Ending → Progress
  | .open => .stopped (.reading got)
  | .ended _ => .done (.error (.receiveFailed .endInsideHandshake))
  | .failed text _ => .done (.error (.receiveFailed (.reported text)))

/-- **A stream with fewer bytes is read up to its end.** -/
theorem readAnswer_of_lt (hl : (got ++ chunks.flatten).length < Answer.size) :
    readAnswer got (e.stream chunks) = (shortage (got ++ chunks.flatten) e, behind e) := by
  induction hu : (e.stream chunks).unread using Nat.strongRecOn generalizing got chunks with
  | ind u ih =>
    have hg : got.length < Answer.size := by
      rw [List.length_append] at hl
      omega
    rcases e.read_stream chunks (Answer.size - got.length) with ⟨bs, chunks', hr, hj⟩ | ⟨hn, -⟩
    · obtain ⟨hx, hp⟩ := Source.unread_read hr
      have hz := List.length_pos_iff.2 (hp (by omega))
      rw [← hj, ← List.append_assoc] at hl ⊢
      rw [readAnswer_read hg, hr]
      exact ih _ (by omega) hl rfl
    · rw [hn, List.append_nil, readAnswer_read hg, read_of_flatten_eq_nil hn]
      cases e <;> rfl

theorem readAnswer_whole (hl : Answer.size ≤ chunks.flatten.length) : ∃ chunks',
    readAnswer [] (e.stream chunks) =
      (.done (conclude (chunks.flatten.take Answer.size)), e.stream chunks') ∧
    chunks'.flatten = chunks.flatten.drop Answer.size :=
  readAnswer_of_le (Nat.zero_le _) hl

theorem readAnswer_short (hl : chunks.flatten.length < Answer.size) :
    readAnswer [] (e.stream chunks) = (shortage chunks.flatten e, behind e) :=
  readAnswer_of_lt hl

/-! ### What the bytes come to -/

/-- The encoding that the flags of an answer select. -/
def chosen (flags : UInt8) : Encoding := if flags.toNat.testBit 0 then .messagePack else .json

/-- **What the bytes that a peer sends come to**, when no more than they come within `bound`. -/
inductive Answered (bound : Span) (bytes : List UInt8) (e : Ending) :
    Except Failure Session → Prop
  | session {version flags : UInt8} {id more : List UInt8} (hi : id.length = 16)
      (hb : bytes = 0 :: version :: flags :: (id ++ more)) :
      Answered bound bytes e (.ok ⟨id, version, chosen flags⟩)
  | otherVersion {version : UInt8} {more : List UInt8} (hl : Answer.size ≤ bytes.length)
      (hb : bytes = 1 :: version :: more) :
      Answered bound bytes e (.error (.versionMismatch version))
  | denied {more : List UInt8} (hl : Answer.size ≤ bytes.length) (hb : bytes = 2 :: more) :
      Answered bound bytes e (.error .authFailed)
  | unknown {status : UInt8} {more : List UInt8} (hl : Answer.size ≤ bytes.length)
      (hb : bytes = status :: more) (hs : 2 < status) :
      Answered bound bytes e (.error (.handshakeFailed (.unknownStatus status)))
  | cut {more : List Sent} (hl : bytes.length < Answer.size) (he : e = .ended more) :
      Answered bound bytes e (.error (.receiveFailed .endInsideHandshake))
  | broken {text : String} {more : List Sent} (hl : bytes.length < Answer.size)
      (he : e = .failed text more) :
      Answered bound bytes e (.error (.receiveFailed (.reported text)))
  | unanswered (hl : bytes.length < Answer.size) (he : e = .open) :
      Answered bound bytes e (.error (.timeout bound))

theorem chosen_eq (flags : UInt8) :
    chosen flags = if flags &&& 1 = 0 then .json else .messagePack := by
  have h : flags.toNat.testBit 0 = true ↔ ¬ flags &&& 1 = 0 := by
    rw [← UInt8.toNat_inj, UInt8.toNat_and, Nat.testBit_zero, decide_eq_true_iff]
    change _ ↔ ¬ flags.toNat &&& 1 = 0
    rw [Nat.and_one_is_mod]
    omega
  unfold chosen
  by_cases h0 : flags &&& 1 = 0
  · rw [if_pos h0, if_neg fun hx => h.1 hx h0]
  · rw [if_neg h0, if_pos (h.2 h0)]

/-- What a complete answer comes to is told by its first byte. -/
theorem conclude_eq {status version flags : UInt8} {id more : List UInt8} (hi : id.length = 16) :
    conclude ((status :: version :: flags :: (id ++ more)).take Answer.size) =
      (⟨Status.ofByte status, version, flags, id⟩ : Answer).session := by
  have hd : Answer.decode? ((status :: version :: flags :: (id ++ more)).take Answer.size) =
      some ⟨Status.ofByte status, version, flags, id⟩ := by
    change (if ((id ++ more).take 16).length < 16 then none
      else some (⟨Status.ofByte status, version, flags, ((id ++ more).take 16).take 16⟩ : Answer)) = _
    rw [List.take_left' hi, if_neg (by omega), List.take_of_length_le (by omega)]
  unfold conclude
  rw [hd]

/-- Nineteen bytes are a status, a version, flags and an id. -/
theorem exists_answer {bytes : List UInt8} (hl : Answer.size ≤ bytes.length) :
    ∃ status version flags id more, bytes = status :: version :: flags :: (id ++ more) ∧
      id.length = 16 := by
  match bytes, hl with
  | status :: version :: flags :: rest, hl =>
    simp only [List.length_cons, Answer.size] at hl
    refine ⟨status, version, flags, rest.take 16, rest.drop 16, ?_, ?_⟩
    · rw [List.take_append_drop]
    · rw [List.length_take]
      omega

theorem ofByte_of_lt {status : UInt8} (hs : 2 < status) :
    Status.ofByte status = .unknown status := by
  have hn : ∀ b : UInt8, b ≤ 2 → status ≠ b := fun b hb hx => by
    subst hx
    exact absurd hs (UInt8.not_lt.2 hb)
  unfold Status.ofByte
  rw [if_neg (hn 0 (by decide)), if_neg (hn 1 (by decide)), if_neg (hn 2 (by decide))]

/-- What an exchange comes to that is given up where it stands. -/
def verdict (bound : Span) : Progress → Except Failure Session
  | .done r => r
  | .stopped _ => .error (.timeout bound)

/-- **Nineteen bytes come to what their first byte says.** -/
theorem answered_conclude {bytes : List UInt8} (bound : Span) (e : Ending)
    (hl : Answer.size ≤ bytes.length) :
    Answered bound bytes e (conclude (bytes.take Answer.size)) := by
  obtain ⟨status, version, flags, id, more, rfl, hi⟩ := exists_answer hl
  rw [conclude_eq hi]
  by_cases h0 : status = 0
  · subst h0
    have hx : Answered bound (0 :: version :: flags :: (id ++ more)) e
        (.ok ⟨id, version, chosen flags⟩) := .session hi rfl
    rw [chosen_eq] at hx
    exact hx
  by_cases h1 : status = 1
  · subst h1
    exact .otherVersion hl rfl
  by_cases h2 : status = 2
  · subst h2
    exact .denied hl rfl
  have hs : 2 < status := by
    have h0' : status.toNat ≠ 0 := fun h => h0 (UInt8.toNat_inj.1 h)
    have h1' : status.toNat ≠ 1 := fun h => h1 (UInt8.toNat_inj.1 h)
    have h2' : status.toNat ≠ 2 := fun h => h2 (UInt8.toNat_inj.1 h)
    rw [UInt8.lt_iff_toNat_lt]
    change 2 < status.toNat
    omega
  rw [ofByte_of_lt hs]
  exact .unknown hl rfl hs

theorem Answered.eq_conclude {bound : Span} {bytes : List UInt8} {r : Except Failure Session}
    (h : Answered bound bytes e r) (hl : Answer.size ≤ bytes.length) :
    r = conclude (bytes.take Answer.size) := by
  obtain ⟨status, version, flags, id, more, hb, hi⟩ := exists_answer hl
  have hc : conclude (bytes.take Answer.size) =
      (⟨Status.ofByte status, version, flags, id⟩ : Answer).session := by
    rw [hb, conclude_eq hi]
  cases h with
  | session hi' hb' =>
    rw [hb', conclude_eq hi', chosen_eq]
    rfl
  | otherVersion _ hb' =>
    rw [hb] at hb'
    cases hb'
    exact hc.symm
  | denied _ hb' =>
    rw [hb] at hb'
    cases hb'
    exact hc.symm
  | unknown _ hb' hs =>
    rw [hb] at hb'
    cases hb'
    rw [hc, ofByte_of_lt hs]
    rfl
  | cut hl' => omega
  | broken hl' => omega
  | unanswered hl' => omega

theorem Answered.eq_shortage {bound : Span} {bytes : List UInt8} {r : Except Failure Session}
    (h : Answered bound bytes e r) (hl : bytes.length < Answer.size) :
    r = verdict bound (shortage bytes e) := by
  cases h with
  | session hi hb =>
    rw [hb] at hl
    simp only [List.length_cons, List.length_append, Answer.size] at hl
    omega
  | otherVersion hl' => omega
  | denied hl' => omega
  | unknown hl' => omega
  | cut _ he =>
    subst he
    rfl
  | broken _ he =>
    subst he
    rfl
  | unanswered _ he =>
    subst he
    rfl

/-- **What an exchange reports that reads the answer is what the bytes come to.** -/
theorem answered_iff (bound : Span) (e : Ending) (chunks : List (List UInt8))
    (r : Except Failure Session) : Answered bound chunks.flatten e r ↔
      r = verdict bound (readAnswer [] (e.stream chunks)).1 := by
  rcases Nat.lt_or_ge chunks.flatten.length Answer.size with hl | hl
  · rw [readAnswer_short hl]
    refine ⟨fun h => h.eq_shortage hl, ?_⟩
    rintro rfl
    cases e with
    | «open» => exact .unanswered hl rfl
    | ended more => exact .cut hl rfl
    | failed text more => exact .broken hl rfl
  · obtain ⟨chunks', he, -⟩ := readAnswer_whole (e := e) hl
    rw [he]
    refine ⟨fun h => h.eq_conclude hl, ?_⟩
    rintro rfl
    exact answered_conclude bound e hl

/-- **Reading the answer takes nineteen bytes off the stream at most.** -/
theorem exists_read (s : Source) : ∃ used, used.length ≤ Answer.size ∧
    used ++ (readAnswer [] s).2.bytes = s.bytes := by
  obtain ⟨e, chunks, rfl⟩ := Ending.exists_stream s
  have hb : ∀ chunks, (e.stream chunks).bytes = chunks.flatten ++ (e.stream []).bytes := by
    intro chunks
    unfold Ending.stream Source.bytes
    rw [List.flatMap_append, List.flatMap_map]
    congr 1
    exact List.flatMap_id
  rcases Nat.lt_or_ge chunks.flatten.length Answer.size with hl | hl
  · refine ⟨chunks.flatten, by omega, ?_⟩
    rw [readAnswer_short hl, hb chunks, bytes_behind]
  · obtain ⟨chunks', he, hd⟩ := readAnswer_whole (e := e) hl
    refine ⟨chunks.flatten.take Answer.size, List.length_take_le _ _, ?_⟩
    rw [he, hb chunks', hb chunks, hd, ← List.append_assoc, List.take_append_drop]

end DocWire.Handshake
