import DocWire.Proofs.Handshake.Answer
import DocWire.Proofs.Handshake.Request

/-! # An exchange that goes on

An exchange that waits goes on whenever the peer sends more or behaves differently (`Meanwhile`), and
is given up when the time is up (`pursue`). Before the peer has taken the whole request and let it be
flushed, nothing is read, and the exchange comes to what holds the request up (`Withheld`). After that
it comes to what all the bytes say that the peer sends in time, whenever they come
(`Exchange.Unread.comes`). -/

namespace DocWire

namespace Stream.Sink

/-- The peer lets the next byte wait. -/
def Stalls (s : Sink) : Prop := s.budget = some 0 ∧ s.beyond = .waits

/-- The peer takes no byte of what is written next. -/
def Refuses (s : Sink) : Prop :=
  s.budget = some 0 ∧ s.beyond = .takesNothing ∨ s.budget ≠ some 0 ∧ s.perWrite = some 0

/-- The peer fails the next write. -/
def Fails (s : Sink) (text : String) : Prop := s.budget = some 0 ∧ s.beyond = .fails text

/-- Why a peer has not taken more. -/
def Halts (s : Sink) : Written → Prop
  | .all => True
  | .waiting rest => rest ≠ [] ∧ s.Stalls
  | .nothing rest => rest ≠ [] ∧ s.Refuses
  | .failed text rest => rest ≠ [] ∧ s.Fails text

variable {s : Sink} {n : Nat}

theorem grant_eq_none (h : s.grant n = none) : s.budget = some 0 := by
  unfold grant at h
  rcases hb : s.budget with _ | _ | b
  · rw [hb] at h
    cases h
  · rfl
  · rw [hb] at h
    cases h

theorem grant_eq_zero (hn : n ≠ 0) (h : s.grant n = some 0) :
    s.budget ≠ some 0 ∧ s.perWrite = some 0 := by
  unfold grant at h
  rcases hp : s.perWrite with _ | most <;> rcases hb : s.budget with _ | _ | b <;>
    rw [hp, hb] at h <;> dsimp only at h
  · exact absurd (Option.some.inj h) hn
  · cases h
  · have hx : min n (b + 1) = 0 := Option.some.inj h
    omega
  · have hx : min n most = 0 := Option.some.inj h
    obtain rfl : most = 0 := by omega
    exact ⟨by simp, rfl⟩
  · cases h
  · have hx : min (min n most) (b + 1) = 0 := Option.some.inj h
    obtain rfl : most = 0 := by omega
    exact ⟨by simp, rfl⟩

theorem halts_writeFor {fuel : Nat} {bs : List UInt8} (hl : bs.length ≤ fuel) :
    (writeFor fuel s bs).2.Halts (writeFor fuel s bs).1 := by
  induction fuel generalizing s bs with
  | zero =>
    obtain rfl := List.length_eq_zero_iff.1 (Nat.le_zero.1 hl)
    trivial
  | succ fuel ih =>
    cases bs with
    | nil => trivial
    | cons b bs =>
      unfold writeFor
      split
      next hg =>
        have hb := grant_eq_none hg
        split
        next hx => exact ⟨List.cons_ne_nil b bs, hb, hx⟩
        next hx => exact ⟨List.cons_ne_nil b bs, .inl ⟨hb, hx⟩⟩
        next hx => exact ⟨List.cons_ne_nil b bs, hb, hx⟩
      next hg => exact ⟨List.cons_ne_nil b bs, .inr (grant_eq_zero (Nat.succ_ne_zero _) hg)⟩
      next k hk _ =>
        refine ih ?_
        have h0 : k ≠ 0 := hk
        rw [List.length_drop]
        omega

/-- **A write stops short only if the peer holds it up there.** -/
theorem halts_write (s : Sink) (bs : List UInt8) : (s.write bs).2.Halts (s.write bs).1 :=
  halts_writeFor (Nat.le_refl _)

end Stream.Sink

namespace Handshake

open DocWire.Stream (Source Sink Sent SinkChange Written)

/-! ### An exchange that goes on -/

/-- What the peer does while an exchange waits. -/
structure Meanwhile where
  more : List Sent
  change : SinkChange
  deriving DecidableEq, Repr, Inhabited

/-- All that the peer sends. -/
def Meanwhile.sent (ms : List Meanwhile) : List Sent := ms.flatMap (·.more)

/-- How an exchange has come out, and what the peer does after it is over. -/
structure Negotiation where
  result : Except Failure Session
  source : Source
  peer : Sink
  later : List Meanwhile

namespace Negotiation

/-- The stream as the session finds it, with all that comes later. -/
def remaining (x : Negotiation) : Source := x.source.feed (Meanwhile.sent x.later)

end Negotiation

/-- Takes an exchange up again after everything that the peer does, until it is over or the time is
up. -/
def Exchange.pursue (bound : Span) : List Meanwhile → Exchange → Source → Sink → Negotiation
  | [], e, s, w =>
    let (p, s, w) := e.run s w
    ⟨verdict bound p, s, w, []⟩
  | m :: ms, e, s, w =>
    match e.run s w with
    | (.done r, s, w) => ⟨r, s, w, m :: ms⟩
    | (.stopped e, s, w) => pursue bound ms e (s.feed m.more) (w.change m.change)

/-- The whole handshake, with all that the peer does before the time is up. -/
def negotiateAmid (r : Request) (bound : Span) (ms : List Meanwhile) (s : Source) (w : Sink) :
    Negotiation :=
  match r.encode? with
  | .error e => ⟨.error e, s, w, ms⟩
  | .ok request => (Exchange.writing request).pursue bound ms s w

/-- On a stream to which nothing is added this is the handshake as it runs. -/
theorem negotiate_eq (r : Request) (bound : Span) (s : Source) (w : Sink) :
    negotiate r bound s w = ((negotiateAmid r bound [] s w).result,
      (negotiateAmid r bound [] s w).source, (negotiateAmid r bound [] s w).peer) := by
  unfold negotiate negotiateAmid
  cases r.encode? with
  | error e => rfl
  | ok request =>
    dsimp only [Exchange.pursue]
    rcases (Exchange.writing request).run s w with ⟨_ | _, s', w'⟩ <;> rfl

/-! ### Until the request is out -/

/-- **What holds a request up**: a peer that has not taken the bytes `left`, or that does not let the
request be flushed. -/
inductive Withheld (bound : Span) (p : Sink) (left : List UInt8) : Failure → Prop
  | notTaken (hl : left ≠ []) (hp : p.Refuses) :
    Withheld bound p left (.sendFailed .handshakeNotAccepted)
  | broken {text : String} (hl : left ≠ []) (hp : p.Fails text) :
    Withheld bound p left (.sendFailed (.reported text))
  | stalled (hl : left ≠ []) (hp : p.Stalls) : Withheld bound p left (.timeout bound)
  | notFlushed {text : String} (hl : left = []) (hp : p.onFlush = .fails text) :
    Withheld bound p left (.sendFailed (.reported text))
  | unflushed (hl : left = []) (hp : p.onFlush = .waits) : Withheld bound p left (.timeout bound)

/-- A request is held up in one way only. -/
theorem Withheld.unique {bound : Span} {p : Sink} {left : List UInt8} {f f' : Failure}
    (h : Withheld bound p left f) (h' : Withheld bound p left f') : f = f' := by
  cases h <;> cases h' <;> simp_all [Sink.Refuses, Sink.Fails, Sink.Stalls]

/-- The peer has taken all of `full` and lets it be flushed. -/
def Reached (full : List UInt8) (p : Sink) : Prop := p.taken = full ∧ p.onFlush = .ready

/-- Whether the answer is still to be read. -/
def Exchange.Unread : Exchange → Prop
  | .reading _ => False
  | _ => True

variable {e e' : Exchange} {s s' : Source} {w w' : Sink} {bound : Span}

/-- One run of an exchange whose answer is still to be read. -/
inductive Goes (bound : Span) (e : Exchange) (s : Source) (w : Sink) :
    Progress × Source × Sink → Prop
  | asked {w' : Sink} (hr : Reached (w.taken ++ e.left) w') :
    Goes bound e s w ((readAnswer [] s).1, (readAnswer [] s).2, w')
  | withheld {p : Progress} {w' : Sink} {left : List UInt8} {f : Failure}
    (hg : w.taken <+: w'.taken) (ht : w'.taken ++ left = w.taken ++ e.left)
    (hv : verdict bound p = .error f) (hh : Withheld bound w' left f)
    (hs : ∀ e', p = .stopped e' → e'.Unread ∧ e'.left = left) : Goes bound e s w (p, s, w')

theorem goes_flushRequest (ht : w'.taken = w.taken ++ e.left) :
    Goes bound e s w (flushRequest s w') := by
  have hg : w.taken <+: w'.taken := ht ▸ List.prefix_append _ _
  unfold flushRequest
  split
  next hf => exact .asked ⟨ht, hf⟩
  next hf =>
    refine .withheld hg (by rw [List.append_nil, ht]) rfl (.unflushed rfl hf) ?_
    rintro e' ⟨⟩
    exact ⟨trivial, rfl⟩
  next hf =>
    exact .withheld hg (by rw [List.append_nil, ht]) rfl (.notFlushed rfl hf)
      fun _ hx => by cases hx

theorem Exchange.goes (he : e.Unread) (s : Source) (w : Sink) :
    Goes bound e s w (e.run s w) := by
  cases e with
  | writing rest =>
    obtain ⟨out, ht, hr⟩ := w.exists_taken_write rest
    have hg : w.taken <+: (w.write rest).2.taken := ht ▸ List.prefix_append _ _
    have hl : (w.write rest).2.taken ++ (w.write rest).1.rest = w.taken ++ rest := by
      rw [ht, List.append_assoc, hr]
    have hh := w.halts_write rest
    dsimp only [run]
    rcases hw : w.write rest with ⟨_ | left | left | ⟨text, left⟩, w'⟩ <;>
      rw [hw] at hg hl hh <;> dsimp only at hg hl hh ⊢
    case all => exact goes_flushRequest (by simpa [Written.rest, left] using hl)
    case waiting =>
      refine .withheld hg hl rfl (.stalled hh.1 hh.2) ?_
      rintro e' ⟨⟩
      exact ⟨trivial, rfl⟩
    case nothing => exact .withheld hg hl rfl (.notTaken hh.1 hh.2) fun _ hx => by cases hx
    case failed => exact .withheld hg hl rfl (.broken hh.1 hh.2) fun _ hx => by cases hx
  | flushing => exact goes_flushRequest (List.append_nil _).symm
  | reading got => exact he.elim

/-! ### The whole exchange -/

theorem pursue_of_done {r : Except Failure Session} (h : e.run s w = (.done r, s', w'))
    (ms : List Meanwhile) : e.pursue bound ms s w = ⟨r, s', w', ms⟩ := by
  cases ms <;> rw [Exchange.pursue, h]
  rfl

theorem pursue_congr {e₁ e₂ : Exchange} {s₁ s₂ : Source} {w₁ w₂ : Sink}
    (h : e₁.run s₁ w₁ = e₂.run s₂ w₂) (ms : List Meanwhile) :
    e₁.pursue bound ms s₁ w₁ = e₂.pursue bound ms s₂ w₂ := by
  cases ms <;> rw [Exchange.pursue, Exchange.pursue, h]

theorem pursue_nil (h : e.run s w = (.stopped e', s', w')) :
    e.pursue bound [] s w = ⟨.error (.timeout bound), s', w', []⟩ := by
  rw [Exchange.pursue, h]
  rfl

theorem pursue_cons (h : e.run s w = (.stopped e', s', w')) (m : Meanwhile)
    (ms : List Meanwhile) : e.pursue bound (m :: ms) s w =
      e'.pursue bound ms (s'.feed m.more) (w'.change m.change) := by
  rw [Exchange.pursue, h]

theorem Meanwhile.sent_cons (m : Meanwhile) (ms : List Meanwhile) :
    sent (m :: ms) = m.more ++ sent ms := List.flatMap_cons

theorem Source.feed_feed (s : Source) (more more' : List Sent) :
    (s.feed more).feed more' = s.feed (more ++ more') := by
  simp [Source.feed]

theorem Source.feed_nil (s : Source) : s.feed [] = s := by
  simp [Source.feed]

/-- **When the answer comes does not matter**, once it is being read. -/
theorem pursue_reading (bound : Span) (ms : List Meanwhile) (got : List UInt8) (s : Source)
    (w : Sink) :
    ((Exchange.reading got).pursue bound ms s w).result =
        verdict bound (readAnswer got (s.feed (Meanwhile.sent ms))).1 ∧
      ((Exchange.reading got).pursue bound ms s w).remaining =
        (readAnswer got (s.feed (Meanwhile.sent ms))).2 ∧
      ((Exchange.reading got).pursue bound ms s w).peer.taken = w.taken := by
  induction ms generalizing got s w with
  | nil =>
    have hs : s.feed (Meanwhile.sent []) = s := Source.feed_nil s
    rw [hs]
    exact ⟨rfl, Source.feed_nil _, rfl⟩
  | cons m ms ih =>
    have hx : (Exchange.reading got).run s w =
        ((readAnswer got s).1, (readAnswer got s).2, w) := rfl
    rcases hr : readAnswer got s with ⟨x | r, s'⟩
    · obtain ⟨got', rfl, he⟩ := readAnswer_feed_stopped hr (Meanwhile.sent (m :: ms))
      rw [hr] at hx
      obtain ⟨hv, hs, ht⟩ := ih got' (s'.feed m.more) (w.change m.change)
      rw [Source.feed_feed, ← Meanwhile.sent_cons, ← he] at hv hs
      rw [pursue_cons hx]
      exact ⟨hv, hs, ht⟩
    · rw [hr] at hx
      rw [readAnswer_feed_done hr, pursue_of_done hx]
      exact ⟨rfl, rfl, rfl⟩

/-- What an exchange comes to whose answer is still to be read. -/
inductive Comes (bound : Span) (ms : List Meanwhile) (e : Exchange) (s : Source) (w : Sink) : Prop
  | asked (ha : ∃ k, Reached (w.taken ++ e.left) (e.pursue bound (ms.take k) s w).peer)
    (ht : (e.pursue bound ms s w).peer.taken = w.taken ++ e.left)
    (hx : (e.pursue bound ms s w).result =
      verdict bound (readAnswer [] (s.feed (Meanwhile.sent ms))).1)
    (hs : (e.pursue bound ms s w).remaining = (readAnswer [] (s.feed (Meanwhile.sent ms))).2)
  | withheld {left : List UInt8} {f : Failure}
    (ha : ∀ k, ¬ Reached (w.taken ++ e.left) (e.pursue bound (ms.take k) s w).peer)
    (hg : w.taken <+: (e.pursue bound ms s w).peer.taken)
    (ht : (e.pursue bound ms s w).peer.taken ++ left = w.taken ++ e.left)
    (hx : (e.pursue bound ms s w).result = .error f)
    (hh : Withheld bound (e.pursue bound ms s w).peer left f)
    (hs : (e.pursue bound ms s w).remaining = s.feed (Meanwhile.sent ms))

theorem Withheld.not_reached {p : Sink} {left full : List UInt8} {f : Failure}
    (h : Withheld bound p left f) (ht : p.taken ++ left = full) : ¬ Reached full p := by
  rintro ⟨hp, hf⟩
  have hl : left = [] := by
    rw [hp] at ht
    exact List.append_right_eq_self.1 ht
  cases h with
  | notTaken hn => exact hn hl
  | broken hn => exact hn hl
  | stalled hn => exact hn hl
  | notFlushed _ hw =>
    rw [hf] at hw
    cases hw
  | unflushed _ hw =>
    rw [hf] at hw
    cases hw

theorem comes_of_asked (h : e.run s w = (Exchange.reading []).run s w')
    (hr : Reached (w.taken ++ e.left) w') (ms : List Meanwhile) : Comes bound ms e s w := by
  obtain ⟨hx, hs, ht⟩ := pursue_reading bound ms [] s w'
  rw [← pursue_congr h] at hx hs ht
  refine .asked ⟨0, ?_⟩ (ht.trans hr.1) hx hs
  rw [pursue_congr h]
  exact hr

theorem comes_of_done {left : List UInt8} {f : Failure} (h : e.run s w = (.done (.error f), s, w'))
    (hg : w.taken <+: w'.taken) (ht : w'.taken ++ left = w.taken ++ e.left)
    (hh : Withheld bound w' left f) (ms : List Meanwhile) : Comes bound ms e s w := by
  refine @Comes.withheld bound ms e s w left f (fun k => ?_) ?_ ?_ ?_ ?_ ?_ <;>
    rw [pursue_of_done h]
  · exact hh.not_reached ht
  · exact hg
  · exact ht
  · exact hh
  · rfl

/-- An exchange whose answer is still to be read comes to what it comes to in its next run, unless it
waits for the peer to take more. -/
theorem Exchange.Unread.comes_or_waits (he : e.Unread) (bound : Span) (s : Source) (w : Sink) :
    (∀ ms, Comes bound ms e s w) ∨ ∃ e' w', e.run s w = (.stopped e', s, w') ∧ e'.Unread ∧
      w.taken <+: w'.taken ∧ w'.taken ++ e'.left = w.taken ++ e.left ∧
        Withheld bound w' e'.left (.timeout bound) := by
  have hgo : Goes bound e s w (e.run s w) := e.goes he s w
  generalize hrun : e.run s w = out at hgo
  cases hgo with
  | asked hr => exact .inl (comes_of_asked hrun hr)
  | @withheld p w' left f hg ht hv hh hst =>
    cases p with
    | done r =>
      cases hv
      exact .inl (comes_of_done hrun hg ht hh)
    | stopped e' =>
      cases hv
      obtain ⟨he', rfl⟩ := hst e' rfl
      exact .inr ⟨e', w', rfl, he', hg, ht, hh⟩

/-- **Before the request is out nothing is read; after that only the answer counts.** -/
theorem Exchange.Unread.comes (he : e.Unread) (ms : List Meanwhile) (s : Source) (w : Sink) :
    Comes bound ms e s w := by
  induction ms generalizing e s w with
  | nil =>
    obtain hc | ⟨e', w', hrun, -, hg, ht, hh⟩ := he.comes_or_waits bound s w
    · exact hc []
    refine @Comes.withheld bound [] e s w e'.left (.timeout bound) (fun k => ?_) ?_ ?_ ?_ ?_ ?_ <;>
      simp only [List.take_nil, pursue_nil hrun]
    · exact hh.not_reached ht
    · exact hg
    · exact ht
    · exact hh
    · rfl
  | cons m ms ih =>
    obtain hc | ⟨e', w', hrun, he', hg, ht, hh⟩ := he.comes_or_waits bound s w
    · exact hc _
    have hw : (w'.change m.change).taken ++ e'.left = w.taken ++ e.left := ht
    cases ih he' (s.feed m.more) (w'.change m.change) with
    | asked ha ht' hx hs =>
      rw [hw] at ha ht'
      rw [Source.feed_feed, ← Meanwhile.sent_cons] at hx hs
      obtain ⟨k, ha⟩ := ha
      refine .asked ⟨k + 1, ?_⟩ ?_ ?_ ?_
      · rw [List.take_succ_cons, pursue_cons hrun]
        exact ha
      all_goals rw [pursue_cons hrun]
      · exact ht'
      · exact hx
      · exact hs
    | @withheld left' f' ha hg' ht' hx hh' hs =>
      rw [hw] at ha ht'
      rw [Source.feed_feed, ← Meanwhile.sent_cons] at hs
      refine @Comes.withheld bound (m :: ms) e s w left' f' (fun k => ?_) ?_ ?_ ?_ ?_ ?_
      · cases k with
        | zero =>
          rw [List.take_zero, pursue_nil hrun]
          exact hh.not_reached ht
        | succ k =>
          rw [List.take_succ_cons, pursue_cons hrun]
          exact ha k
      all_goals rw [pursue_cons hrun]
      · exact hg.trans hg'
      · exact ht'
      · exact hx
      · exact hh'
      · exact hs

end Handshake

end DocWire
