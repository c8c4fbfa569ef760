import DocWire.Proofs.Frame.Collecting
import DocWire.Proofs.Handshake.Layout
import DocWire.Proofs.Handshake.Pursuit

/-! # What the handshake comes to

A handshake with all that the peer does before the time is up (`negotiateAmid`) comes to one result,
which depends on the bytes only and not on when they come (`negotiates`): a credential that is too long
is refused, a request that does not get out comes to what holds it up, and one that does comes to what
the peer answers (`Answered`). Frames are read from behind the answer on. -/

namespace DocWire

namespace Handshake

open DocWire.Stream (Source Sink)
open DocWire.Frame (Ending Buffer Splits)

variable {s : Source} {w : Sink} {bound : Span}

/-! ### The whole contract -/

variable {r : Request} {ms : List Meanwhile} {en : Ending} {chunks : List (List UInt8)}

/-- At some moment the peer has taken the whole request and lets it be flushed. -/
def Asked (r : Request) (bound : Span) (ms : List Meanwhile) (s : Source) (w : Sink)
    (request : List UInt8) : Prop :=
  ∃ k, Reached (w.taken ++ request) (negotiateAmid r bound (ms.take k) s w).peer

/-- What holds of a handshake that has come out as `x`, if all that the peer sends before the time
is up is the stream of `chunks` with the ending `en`. A credential that is too long is refused
before anything is written or read. What is written is a prefix of the request; a request that does
not get out comes to what holds it up, and nothing is read (`held_up`), and one that does comes to
what the peer answers. There is a session exactly if the answer grants it.

Frames are read from behind the answer on, also if they come in one chunk with it. -/
structure Negotiates (r : Request) (bound : Span) (ms : List Meanwhile) (s : Source) (w : Sink)
    (en : Ending) (chunks : List (List UInt8)) (x : Negotiation) : Prop where
  at_once : ms = [] → negotiate r bound s w = (x.result, x.source, x.peer)
  too_long : 65535 < r.secret.length →
    x = ⟨.error (.invalidArgument (.credentialTooLong r.secret.length)), s, w, ms⟩
  encoded : r.secret.length ≤ 65535 → ∃ request, r.encode? = .ok request
  written : ∀ request, r.encode? = .ok request →
    ∃ out, x.peer.taken = w.taken ++ out ∧ out <+: request
  session : ∀ session, x.result = .ok session ↔ ∃ request, r.encode? = .ok request ∧
    Asked r bound ms s w request ∧ ∃ flags more,
      chunks.flatten = 0 :: session.version :: flags :: (session.id ++ more) ∧
        session.id.length = 16 ∧ session.encoding = chosen flags
  held_up : ∀ request, r.encode? = .ok request → ¬ Asked r bound ms s w request →
    x.remaining = s.feed (Meanwhile.sent ms) ∧ ∃ left,
      x.peer.taken ++ left = w.taken ++ request ∧ (∃ f, x.result = .error f) ∧
        ∀ f, x.result = .error f ↔ Withheld bound x.peer left f
  answered : ∀ request, r.encode? = .ok request → Asked r bound ms s w request →
    x.peer.taken = w.taken ++ request ∧
      ∀ result, x.result = result ↔ Answered bound chunks.flatten en result
  frugal : ∃ used, used.length ≤ 19 ∧
    used ++ x.remaining.bytes = (s.feed (Meanwhile.sent ms)).bytes
  frames : ∀ request, r.encode? = .ok request → Asked r bound ms s w request →
    19 ≤ chunks.flatten.length → ∀ limit, ∃ frames rest last b s',
      Splits limit (chunks.flatten.drop 19) frames rest ∧
        (Buffer.empty limit).calls x.remaining (frames.length + 1) =
          (frames.map .frame ++ [last], b, s')

theorem answered_ok_iff {bytes : List UInt8} {session : Session} :
    Answered bound bytes en (.ok session) ↔ ∃ flags more,
      bytes = 0 :: session.version :: flags :: (session.id ++ more) ∧ session.id.length = 16 ∧
        session.encoding = chosen flags := by
  constructor
  · intro h
    cases h with
    | session hi hb => exact ⟨_, _, hb, hi, rfl⟩
  · rintro ⟨flags, more, hb, hi, he⟩
    obtain ⟨id, version, encoding⟩ := session
    obtain rfl : encoding = chosen flags := he
    exact .session hi hb

theorem negotiates_refused (bound : Span) (ms : List Meanwhile) (s : Source) (w : Sink)
    (en : Ending) (chunks : List (List UInt8)) (hl : 65535 < r.secret.length) :
    Negotiates r bound ms s w en chunks (negotiateAmid r bound ms s w) := by
  have he := Request.encode?_eq_error hl
  have hx : negotiateAmid r bound ms s w =
      ⟨.error (.invalidArgument (.credentialTooLong r.secret.length)), s, w, ms⟩ := by
    unfold negotiateAmid
    rw [he]
  have hn : ∀ request, r.encode? ≠ .ok request := fun request h => by
    rw [he] at h
    cases h
  rw [hx]
  exact {
    at_once := by
      rintro rfl
      rw [negotiate_eq, hx]
    too_long := fun _ => rfl
    encoded := fun h => by omega
    written := fun request h => absurd h (hn request)
    session := fun session => ⟨nofun, fun ⟨request, h, _⟩ => absurd h (hn request)⟩
    held_up := fun request h => absurd h (hn request)
    answered := fun request h => absurd h (hn request)
    frugal := ⟨[], Nat.zero_le _, rfl⟩
    frames := fun request h => absurd h (hn request) }

theorem negotiateAmid_of_ok {request : List UInt8} (he : r.encode? = .ok request)
    (ms : List Meanwhile) : negotiateAmid r bound ms s w =
      (Exchange.writing request).pursue bound ms s w := by
  unfold negotiateAmid
  rw [he]

theorem at_once_of_nil (r : Request) (bound : Span) (s : Source) (w : Sink) (h : ms = []) :
    negotiate r bound s w = ((negotiateAmid r bound ms s w).result,
      (negotiateAmid r bound ms s w).source, (negotiateAmid r bound ms s w).peer) := by
  subst h
  exact negotiate_eq r bound s w

theorem exists_frames {x : Source} (hx : x = (readAnswer [] (en.stream chunks)).2)
    (hl : 19 ≤ chunks.flatten.length) (limit : UInt32) :
    ∃ frames rest last b s', Splits limit (chunks.flatten.drop 19) frames rest ∧
      (Buffer.empty limit).calls x (frames.length + 1) =
        (frames.map .frame ++ [last], b, s') := by
  obtain ⟨chunks', he, hd⟩ := readAnswer_whole (e := en) hl
  obtain rfl : x = en.stream chunks' := by rw [hx, he]
  obtain ⟨frames, rest, hj⟩ := Buffer.exists_splits limit (chunks.flatten.drop 19)
  have hj' : Splits (Buffer.empty limit).limit ((Buffer.empty limit).held ++ chunks'.flatten)
      frames rest := by
    rw [hd]
    exact hj
  obtain ⟨last, b, s', hc, -⟩ := Buffer.calls_spec (Buffer.sound_empty limit) en hj'
  exact ⟨frames, rest, last, b, s', hj, hc⟩

/-- A handshake whose request has got out. -/
theorem negotiates_asked {request : List UInt8} (h : s.feed (Meanwhile.sent ms) = en.stream chunks)
    (hl : r.secret.length ≤ 65535) (he : r.encode? = .ok request)
    (ha : Asked r bound ms s w request)
    (ht : (negotiateAmid r bound ms s w).peer.taken = w.taken ++ request)
    (hx : (negotiateAmid r bound ms s w).result =
      verdict bound (readAnswer [] (s.feed (Meanwhile.sent ms))).1)
    (hs : (negotiateAmid r bound ms s w).remaining =
      (readAnswer [] (s.feed (Meanwhile.sent ms))).2) :
    Negotiates r bound ms s w en chunks (negotiateAmid r bound ms s w) := by
  have hu : ∀ {request'}, r.encode? = .ok request' → request' = request := fun h' =>
    Except.ok.inj (h'.symm.trans he)
  have hv : ∀ result, (negotiateAmid r bound ms s w).result = result ↔
      Answered bound chunks.flatten en result := by
    intro result
    rw [answered_iff, hx, h]
    exact eq_comm
  exact {
    at_once := at_once_of_nil r bound s w
    too_long := fun h => by omega
    encoded := fun _ => ⟨request, he⟩
    written := fun request' he' => by
      obtain rfl := hu he'
      exact ⟨request', ht, List.prefix_rfl⟩
    session := fun session => by
      rw [hv, answered_ok_iff]
      refine ⟨fun hb => ⟨request, he, ha, hb⟩, fun ⟨_, _, _, hb⟩ => hb⟩
    held_up := fun request' he' hn => by
      obtain rfl := hu he'
      exact absurd ha hn
    answered := fun request' he' _ => by
      obtain rfl := hu he'
      exact ⟨ht, hv⟩
    frugal := by
      rw [hs]
      exact exists_read _
    frames := fun _ _ _ hl' limit => exists_frames (hs.trans (by rw [h])) hl' limit }

theorem negotiates_withheld {request left : List UInt8} {f : Failure}
    (hl : r.secret.length ≤ 65535) (he : r.encode? = .ok request)
    (ha : ¬ Asked r bound ms s w request)
    (hg : w.taken <+: (negotiateAmid r bound ms s w).peer.taken)
    (ht : (negotiateAmid r bound ms s w).peer.taken ++ left = w.taken ++ request)
    (hx : (negotiateAmid r bound ms s w).result = .error f)
    (hh : Withheld bound (negotiateAmid r bound ms s w).peer left f)
    (hs : (negotiateAmid r bound ms s w).remaining = s.feed (Meanwhile.sent ms)) :
    Negotiates r bound ms s w en chunks (negotiateAmid r bound ms s w) := by
  have hu : ∀ {request'}, r.encode? = .ok request' → request' = request := fun h' =>
    Except.ok.inj (h'.symm.trans he)
  exact {
    at_once := at_once_of_nil r bound s w
    too_long := fun h => by omega
    encoded := fun _ => ⟨request, he⟩
    written := fun request' he' => by
      obtain rfl := hu he'
      obtain ⟨out, ho⟩ := hg
      have hl : w.taken ++ (out ++ left) = w.taken ++ request' := by
        rw [← List.append_assoc, ho, ht]
      exact ⟨out, ho.symm, left, List.append_cancel_left hl⟩
    session := fun session => by
      rw [hx]
      refine ⟨nofun, fun ⟨request', he', ha', _⟩ => ?_⟩
      obtain rfl := hu he'
      exact absurd ha' ha
    held_up := fun request' he' _ => by
      obtain rfl := hu he'
      refine ⟨hs, left, ht, ⟨f, hx⟩, fun f' => ⟨fun h => ?_, fun h => ?_⟩⟩
      · rw [hx] at h
        cases h
        exact hh
      · rw [hx, hh.unique h]
    answered := fun request' he' ha' => by
      obtain rfl := hu he'
      exact absurd ha' ha
    frugal := ⟨[], Nat.zero_le _, congrArg Source.bytes hs⟩
    frames := fun request' he' ha' => by
      obtain rfl := hu he'
      exact absurd ha' ha }

theorem negotiates_sent (h : s.feed (Meanwhile.sent ms) = en.stream chunks)
    (hl : r.secret.length ≤ 65535) :
    Negotiates r bound ms s w en chunks (negotiateAmid r bound ms s w) := by
  obtain ⟨request, he⟩ : ∃ request, r.encode? = .ok request := ⟨_, Request.encode?_eq_ok hl⟩
  have hn : ∀ ms, (Exchange.writing request).pursue bound ms s w = negotiateAmid r bound ms s w :=
    fun ms => (negotiateAmid_of_ok he ms).symm
  have hu : (Exchange.writing request).Unread := trivial
  have hc : Comes bound ms (.writing request) s w := hu.comes ms s w
  cases hc with
  | asked ha ht hx hs =>
    simp only [hn] at ha ht hx hs
    exact negotiates_asked h hl he ha ht hx hs
  | withheld ha hg ht hx hh hs =>
    simp only [hn] at ha hg ht hx hh hs
    exact negotiates_withheld hl he (fun ⟨k, hk⟩ => ha k hk) hg ht hx hh hs

/-- **The handshake keeps its contract**, however the peer takes the request and however it sends its
answer. -/
theorem negotiates (h : s.feed (Meanwhile.sent ms) = en.stream chunks) :
    Negotiates r bound ms s w en chunks (negotiateAmid r bound ms s w) := by
  rcases Nat.lt_or_ge 65535 r.secret.length with hl | hl
  · exact negotiates_refused bound ms s w en chunks hl
  · exact negotiates_sent h hl

/-- A peer that takes four bytes, then all of them, and then sends its answer with the first byte of a
frame behind it. -/
def piecewise : List Meanwhile :=
  [⟨[], ⟨some none, none, none, none, none⟩⟩,
    ⟨[.chunk ([0, 1, 1] ++ List.replicate 16 7 ++ [9])], ⟨none, none, none, none, none⟩⟩]

theorem negotiates_piecewise :
    Source.quiet.feed (Meanwhile.sent piecewise) =
        Ending.open.stream [[0, 1, 1] ++ List.replicate 16 7 ++ [9]] ∧
      (negotiateAmid ⟨1, .messagePack, none⟩ ⟨5, 0⟩ piecewise Source.quiet
        { Sink.eager with budget := some 4 }).result =
        .ok ⟨List.replicate 16 7, 1, .messagePack⟩ := by
  have hs : Source.quiet.feed (Meanwhile.sent piecewise) =
      Ending.open.stream [[0, 1, 1] ++ List.replicate 16 7 ++ [9]] := rfl
  refine ⟨hs, ((negotiates hs).session _).2 ⟨_, rfl, ⟨1, ?_, ?_⟩, 1, [9], rfl, rfl, rfl⟩⟩
  · rfl
  · rfl

end Handshake

end DocWire
