import Mathlib.Data.List.Forall2
import DocWire.Proofs.Client.Writing
import DocWire.Proofs.Handshake.Request

/-! # What the peer takes

After the request of the handshake the peer takes whole frames, in the order in which calls set out
to send them, and at most a part of one more (`Streamed`). That part is being added to by the call
that has the write path; if nobody does, the writing half of the stream is gone (`Tail`). -/

namespace DocWire.Client

open DocWire.Correlator (Waiter)
open DocWire.Handshake (Exchange)

/-- What has become of the frame behind those that are out: there is none, a call is sending it, or
it has been left half written. -/
inductive Tail (c : Client) (whole : List (Nat × ClientMessage)) (part : List UInt8) : Prop
  | clear (hn : ∀ n s, c.stage n ≠ .send s) (hp : part = [])
  | busy {n : Nat} {m : ClientMessage} {s : Sending} (hs : c.stage n = .send s)
      (hf : c.frameOf? m = .ok (part ++ s.rest)) (hz : s.size = (part ++ s.rest).length)
      (ho : (whole ++ [(n, m)]).Sublist (sendings c.journal))
  | broken {n : Nat} {m : ClientMessage} {rest : List UInt8} (hn : ∀ n s, c.stage n ≠ .send s)
      (hh : c.write.half.IsPast) (hf : c.frameOf? m = .ok (part ++ rest)) (hp : part ≠ [])
      (hr : rest ≠ []) (ho : (whole ++ [(n, m)]).Sublist (sendings c.journal))

/-- The peer has taken the request of the handshake, whole frames, and a part of the next. -/
inductive Streamed (c : Client) : Prop
  | intro {opening part : List UInt8} {whole : List (Nat × ClientMessage)}
      {frames : List (List UInt8)} (hb : c.opening = .ok opening)
      (ht : c.peer.taken = opening ++ frames.flatten ++ part)
      (hf : List.Forall₂ (fun p f => c.frameOf? p.2 = .ok f) whole frames)
      (ho : whole.Sublist (sendings c.journal)) (hl : c.Tail whole part)

/-- **The invariant of the outgoing stream.** -/
structure Outgoing (c : Client) : Prop where
  fresh : c.write.half = .unused → c.peer.taken = []
  shaking : ∀ {n e due}, c.stage n = .handshake e due →
    ∃ bytes, c.opening = .ok bytes ∧ c.peer.taken ++ e.left = bytes
  stream : c.session ≠ none → c.Streamed

variable {c c' c₁ d : Client} {n : Nat} {m : ClientMessage} {waiter : Option Waiter}

theorem opening_congr (h : c'.config = c.config) : c'.opening = c.opening := by
  unfold opening
  rw [h]

theorem frameOf?_congr (h : c'.config = c.config) (hs : c'.session = c.session)
    (m : ClientMessage) : c'.frameOf? m = c.frameOf? m := by
  unfold frameOf? encoding
  rw [h, hs]

/-! ### Moves that leave the stream alone -/

theorem Tail.rests (h : c.Tail whole part) (hr : c.Rests c')
    (hj : (sendings c.journal).Sublist (sendings c'.journal)) : c'.Tail whole part := by
  have hn : (∀ n s, c.stage n ≠ .send s) → ∀ n s, c'.stage n ≠ .send s := fun hn n s hs =>
    hn n s ((hr.sends n s).1 hs)
  cases h with
  | clear hn' hp => exact .clear (hn hn') hp
  | busy hs hf hz ho =>
    refine .busy ((hr.sends _ _).2 hs) ?_ hz (ho.trans hj)
    rw [frameOf?_congr hr.config hr.session, hf]
  | broken hn' hh hf hp hr' ho =>
    refine .broken (hn hn') ?_ ?_ hp hr' (ho.trans hj)
    · rcases hr.half with hx | hx
      · rw [hx]; exact hh
      · exact hx
    · rw [frameOf?_congr hr.config hr.session, hf]

theorem Outgoing.rests (h : Outgoing c) (hr : c.Rests c')
    (hj : (sendings c.journal).Sublist (sendings c'.journal)) : Outgoing c' where
  fresh hu := by
    rw [hr.taken]
    refine h.fresh ?_
    rcases hr.half with hx | hx | hx
    · rwa [hx] at hu
    · rw [hx] at hu; cases hu
    · rw [hx] at hu; cases hu
  shaking hs := by
    rw [opening_congr hr.config, hr.taken]
    exact h.shaking (hr.shakes _ _ _ hs)
  stream hs := by
    rw [hr.session] at hs
    obtain ⟨hb, ht, hf, ho, hl⟩ := h.stream hs
    refine .intro ((opening_congr hr.config).trans hb) (hr.taken.trans ht) ?_ (ho.trans hj)
      (hl.rests hr hj)
    exact hf.imp fun p f hp => (frameOf?_congr hr.config hr.session p.2).trans hp

/-! ### The handshake -/

theorem Guarded.alone_aloof (hg : Guarded c) {e : Exchange} {due : Nat}
    (hs : c.stage n = .handshake e due) (r : Except Failure Outcome) (i : Nat) :
    (∀ e due, (c.setStage n (.done r)).stage i ≠ .handshake e due) ∧
      ∀ s, (c.setStage n (.done r)).stage i ≠ .send s := by
  rcases (hg.alone hs (s := .done r) trivial).1 i with hr | hl
  · refine ⟨fun e due hi => ?_, fun s hi => ?_⟩
    · rw [hi] at hr; exact hr
    · rw [hi] at hr; exact hr
  · rw [hl]
    exact ⟨nofun, nofun⟩

theorem Outgoing.connect (h : Outgoing c) (hg : Guarded c) {bytes : List UInt8} {due : Nat}
    (hu : c.write.half = .unused) (hb : c.opening = .ok bytes) :
    Outgoing (({ c with write := { c.write with half := .unsplit } }).setStage n
      (.handshake (.writing bytes) due)) where
  fresh := nofun
  shaking {i e due'} hs := by
    have hs : (c.setStage n (.handshake (.writing bytes) due)).stage i = .handshake e due' := hs
    rcases stage_setStage_cases hs with ⟨-, hx⟩ | hx
    · cases hx
      refine ⟨bytes, hb, ?_⟩
      change c.peer.taken ++ bytes = bytes
      rw [h.fresh hu, List.nil_append]
    · exact absurd hx (hg.ne_handshake (by rw [hu]; nofun) _ _ _)
  stream hs := absurd (hg.young (.inl hu)) hs

/-- While hands are shaken, what has been taken and what is left make up the request. -/
theorem Outgoing.shake (h : Outgoing c) (hg : Guarded c) {e e' : Exchange} {due : Nat}
    {source : Stream.Source} {peer : Stream.Sink} (hs : c.stage n = .handshake e due)
    (hr : e.run c.source c.peer = (.stopped e', source, peer)) :
    Outgoing (({ c with peer := peer }).setStage n (.handshake e' due)) where
  fresh hu := by
    have hu : c.write.half = .unused := hu
    rw [hg.half_of_handshake hs] at hu
    cases hu
  shaking {i e₁ due'} hi := by
    have hi : (c.setStage n (.handshake e' due)).stage i = .handshake e₁ due' := hi
    have hin : i = n := (stage_setStage_cases hi).elim And.left fun hx => hg.shaking hx hs
    rw [hin, stage_setStage_self (lt_of_stage_ne_dropped (by simp [hs]))] at hi
    cases hi
    obtain ⟨bytes, hb, ht⟩ := h.shaking hs
    exact ⟨bytes, hb, (Exchange.taken_of_stopped hr).trans ht⟩
  stream hx := absurd (hg.young (.inr (hg.half_of_handshake hs))) hx

/-- When the handshake succeeds, the peer has taken its request, and nobody has begun to send. -/
theorem Outgoing.establish (h : Outgoing c) (hg : Guarded c) {e : Exchange} {due : Nat}
    {session : Handshake.Session} {source : Stream.Source} {peer : Stream.Sink}
    {r : Except Failure Outcome} (hs : c.stage n = .handshake e due)
    (hr : e.run c.source c.peer = (.done (.ok session), source, peer)) :
    Outgoing ((({ c with peer := peer }).accept session).setStage n (.done r)) where
  fresh := nofun
  shaking hi := absurd hi ((hg.alone_aloof hs r _).1 _ _)
  stream _ := by
    obtain ⟨bytes, hb, ht⟩ := h.shaking hs
    have hp : peer.taken = bytes ++ List.flatten [] ++ [] := by
      rw [Exchange.taken_of_done hr, ht]
      simp
    exact .intro hb hp .nil (List.nil_sublist _) (.clear (fun i => (hg.alone_aloof hs r i).2) rfl)

theorem Outgoing.miss (hg : Guarded c) {e : Exchange} {due : Nat} {r : Except Failure Outcome}
    (peer : Stream.Sink) (hs : c.stage n = .handshake e due) :
    Outgoing (({ c with peer := peer }).dropStream.setStage n (.done r)) where
  fresh := nofun
  shaking hi := absurd hi ((hg.alone_aloof hs r _).1 _ _)
  stream hx := absurd (hg.young (.inr (hg.half_of_handshake hs))) hx

/-- Only the sender of a frame adds to it. -/
theorem Tail.of_send {whole : List (Nat × ClientMessage)} {part : List UInt8} {s : Sending}
    (h : c.Tail whole part) (hg : Guarded c) (hs : c.stage n = .send s) :
    ∃ m, c.frameOf? m = .ok (part ++ s.rest) ∧ s.size = (part ++ s.rest).length ∧
      (whole ++ [(n, m)]).Sublist (sendings c.journal) := by
  cases h with
  | clear hn _ => exact absurd hs (hn n s)
  | broken hn _ _ _ _ _ => exact absurd hs (hn n s)
  | @busy i m s' hs' hf hz ho =>
    cases hg.eq_of_send ((holds_iff _ _).2 (hg.sender hs).1) hs'
    cases hs.symm.trans hs'
    exact ⟨m, hf, hz, ho⟩

/-- A call sets out to send its frame behind those that are out. -/
theorem Outgoing.begin (h : Outgoing c) (hg : Guarded c) (he : c.Enters n m waiter c₁)
    {bytes : List UInt8} {due : Nat} (hf : c.frameOf? m = .ok bytes) (hw : c.write.half = .held) :
    Outgoing (c₁.setStage n (.send ⟨bytes, bytes.length, waiter, due⟩)) := by
  obtain ⟨hp, hc, hx⟩ : c₁.peer = c.peer ∧ c₁.config = c.config ∧ c₁.session = c.session := by
    cases he <;> exact ⟨rfl, rfl, rfl⟩
  obtain ⟨l, hj, hl, -⟩ := he.journal_eq
  have hj : sendings c.journal ++ [(n, m)] = sendings c₁.journal := by
    rw [hj, sendings_append, hl]
  refine ⟨fun hu => ?_, fun {i e due'} hi => ?_, fun _ => ?_⟩
  · rw [← he.half_eq] at hw
    cases hw.symm.trans hu
  · rcases stage_setStage_cases hi with ⟨-, hx⟩ | hx
    · cases hx
    · rw [stage_congr he.calls_eq] at hx
      exact absurd hx (hg.ne_handshake (by rw [hw]; nofun) _ _ _)
  · obtain ⟨hb, ht, hfs, ho, hl⟩ := h.stream (hg.bound hw)
    have hfo : ∀ m, (c₁.setStage n (.send ⟨bytes, bytes.length, waiter, due⟩)).frameOf? m =
        c.frameOf? m := frameOf?_congr hc hx
    have hsend := stage_setStage_self (c := c₁) (he.calls_eq ▸ (Sends.atOnce he).lt_length)
      (.send ⟨bytes, bytes.length, waiter, due⟩)
    have ht := (congrArg Stream.Sink.taken hp).trans ht
    have hfs := hfs.imp fun p f hx => (hfo p.2).trans hx
    cases hl with
    | busy hs => exact absurd hs (he.ne_send hg _ _)
    | broken _ hh => rw [hw] at hh; rcases hh with hh | hh <;> cases hh
    | clear _ hpart =>
      subst hpart
      refine .intro ((opening_congr hc).trans hb) ht hfs ?_
        (.busy hsend ((hfo m).trans hf) rfl (hj ▸ ho.append_right _))
      exact hj ▸ ho.trans (List.sublist_append_left _ _)

theorem Outgoing.write (h : Outgoing c) (hg : Guarded c) {s : Sending} {out rest : List UInt8}
    (hs : c.stage n = .send s) (hb : out ++ rest = s.rest) :
    Outgoing (({ c with peer := { c.peer with taken := c.peer.taken ++ out } }).sendRest n
      { s with rest := rest }) := by
  have hw := hg.half_of_send hs
  have hn : n < c.calls.length := lt_of_stage_ne_dropped (by simp [hs])
  refine ⟨fun hu => ?_, fun {i e due'} hi => ?_, fun _ => ?_⟩
  · have hu : c.write.half = .unused := hu
    cases hw.symm.trans hu
  · have hi : (c.setStage n (.send { s with rest := rest })).stage i = .handshake e due' := hi
    rcases stage_setStage_cases hi with ⟨-, hx⟩ | hx
    · cases hx
    · exact absurd hx (hg.ne_handshake (by rw [hw]; nofun) _ _ _)
  · obtain ⟨ho, ht, hfs, hsub, hl⟩ := h.stream (hg.bound hw)
    obtain ⟨m, hf, hz, hsub'⟩ := hl.of_send hg hs
    rw [← hb, ← List.append_assoc] at hf hz
    refine .intro ho ?_ hfs hsub (.busy (stage_setStage_self hn _) hf hz hsub')
    change c.peer.taken ++ out = _
    rw [ht, List.append_assoc]

/-- A call that sends leaves the write path. Its frame is out, or not begun, or left half
written, and then the write path is torn. -/
theorem Outgoing.retire (h : Outgoing c) (hg : Guarded c) {s : Sending} (hs : c.stage n = .send s)
    (hd : c.Retires n d) (hj : (sendings c.journal).Sublist (sendings d.journal)) :
    Outgoing d := by
  obtain ⟨ht, hc, hx, hh, s', hr, hd⟩ := hd
  have hw := hg.half_of_send hs
  have hn : ∀ i s₁, d.stage i ≠ .send s₁ := fun i s₁ hi => by
    rw [stage_congr hd] at hi
    cases hg.eq_of_send ((holds_iff _ _).2 (hg.sender hs).1) (ne_of_setStage_remote hr id hi)
    rw [stage_setStage_self (lt_of_stage_ne_dropped (by simp [hs]))] at hi
    rw [hi] at hr
    exact hr
  refine ⟨fun hu => ?_, fun hi => ?_, fun _ => ?_⟩
  · rw [hh, WritePath.half_leave] at hu
    split at hu
    · cases hu
    · cases hw.symm.trans hu
  · rw [stage_congr hd] at hi
    exact absurd (ne_of_setStage_remote hr id hi) (hg.ne_handshake (by rw [hw]; nofun) _ _ _)
  obtain @⟨opening, part, whole, frames, ho, htk, hfs, hsub, hl⟩ := h.stream (hg.bound hw)
  obtain ⟨m, hf, hz, hsub'⟩ := hl.of_send hg hs
  have hfo := frameOf?_congr hc hx
  have ho := (opening_congr hc).trans ho
  have htk := ht.trans htk
  have hfs := hfs.imp fun p f hp => (hfo p.2).trans hp
  have hf := (hfo m).trans hf
  by_cases hr : s.rest = []
  · rw [hr, List.append_nil] at hf
    have hfs := List.rel_append hfs (.cons (a := (n, m)) hf .nil)
    have htk : d.peer.taken = opening ++ (frames ++ [part]).flatten ++ [] := by
      rw [htk]
      simp
    exact .intro ho htk hfs (hsub'.trans hj) (.clear hn rfl)
  by_cases hp : part = []
  · exact .intro ho htk hfs (hsub.trans hj) (.clear hn hp)
  · have htorn : c.write.torn = true := by
      have hlen : 0 < part.length := List.length_pos_iff.2 hp
      rw [(hg.sender hs).2.2, hz]
      simp [hr]
      omega
    have hgone : d.write.half = .gone := by
      rw [hh, WritePath.half_leave, if_pos ⟨htorn, hw⟩]
    exact .intro ho htk hfs (hsub.trans hj) (.broken hn (.inr hgone) hf hp hr (hsub'.trans hj))

/-! ### Every move -/

theorem Move.sendings_sublist (hm : c.Move c') :
    (sendings c.journal).Sublist (sendings c'.journal) := by
  obtain ⟨l, hj, -⟩ := hm.adds
  rw [hj, sendings_append]
  exact List.sublist_append_left _ _

/-- **The invariant of the outgoing stream is preserved by every move.** -/
theorem Outgoing.move (hm : c.Move c') (hg : Guarded c) (h : Outgoing c) : Outgoing c' := by
  have hj := hm.sendings_sublist
  cases hm.affects hg with
  | rests hr => exact h.rests hr hj
  | connect hu hb => exact h.connect hg hu hb
  | shake hs hr => exact h.shake hg hs hr
  | establish hs hr => exact h.establish hg hs hr
  | miss peer hs => exact .miss hg peer hs
  | begin he hf hw => exact h.begin hg he hf hw
  | write hs hb => exact h.write hg hs hb
  | retire hs hr => exact h.retire hg hs hr hj

theorem Outgoing.initial (config : Config) : Outgoing (Client.initial config) :=
  ⟨fun _ => rfl, nofun, fun hs => absurd rfl hs⟩

theorem Possible.outgoing {config : Config} (h : Possible config c) : Outgoing c :=
  (h.induct (P := fun c => Guarded c ∧ Outgoing c)
    (fun hm ⟨hg, ho⟩ => ⟨hg.move hm, ho.move hm hg⟩)
    (fun job ⟨hg, ho⟩ => ⟨hg.addCall job, ho.rests (.addCall _ job) (.refl _)⟩)
    ⟨Guarded.initial config, Outgoing.initial config⟩).2

theorem Possible.inTurn {config : Config} (h : Possible config c) : InTurn c :=
  (h.induct (P := fun c => Correlated c ∧ InTurn c)
    (fun hm ⟨hc, ht⟩ => ⟨hc.move hm, ht.move hm hc⟩)
    (fun job ⟨hc, ht⟩ => ⟨(Aside.addCall _ job).correlated hc, ht.addCall job⟩)
    ⟨Correlated.initial config, InTurn.initial config⟩).2

end DocWire.Client
