import DocWire.Proofs.Client.Core
import DocWire.Proofs.Frame.Parcels

/-! # One limit for both directions

A client sends a message only if the frame keeps to the limit that its own reader would apply to it
(`frameOf?_eq_ok`, `frameOf?_eq_error`). If the frame does, and the peer takes what is written, the
frame goes out as a whole (`sent_sendMessage`); if it does not, the sending fails with an invalid
argument and the peer takes nothing (`unsent_sendMessage`). With the frames that come out of a buffer
as they went in, this is `Client.limits_agree`. -/

namespace DocWire

open DocWire.Correlator (Waiter)
open DocWire.Frame (Parcel Buffer)

namespace Stream.Sink

variable {s : Sink}

/-- A peer that takes whatever is written, some bytes with every write, and lets it be flushed. -/
structure Works (s : Sink) : Prop where
  unlimited : s.budget = none
  moving : s.perWrite ≠ some 0
  flushing : s.onFlush = .ready

instance : DecidablePred Works := fun s =>
  decidable_of_iff (s.budget = none ∧ s.perWrite ≠ some 0 ∧ s.onFlush = .ready)
    ⟨fun ⟨hb, hm, hf⟩ => ⟨hb, hm, hf⟩, fun h => ⟨h.unlimited, h.moving, h.flushing⟩⟩

theorem Works.take (h : s.Works) (bs : List UInt8) : (s.take bs).Works :=
  ⟨by simp [Sink.take, h.unlimited], h.moving, h.flushing⟩

theorem Works.take_take (h : s.Works) (a b : List UInt8) :
    (s.take a).take b = s.take (a ++ b) := by
  simp [Sink.take, h.unlimited]

theorem Works.take_nil (h : s.Works) : s.take [] = s := by
  obtain ⟨taken, budget, beyond, perWrite, onFlush, onShutdown, shutdownAsked⟩ := s
  obtain rfl : budget = none := h.unlimited
  simp [Sink.take]

/-- Every write that is granted moves a byte at least. -/
theorem Works.grant (h : s.Works) {n : Nat} (hn : 0 < n) :
    ∃ k, s.grant n = some (k + 1) ∧ k < n := by
  unfold Sink.grant
  rw [h.unlimited]
  have hm := h.moving
  cases hp : s.perWrite with
  | none =>
    refine ⟨n - 1, ?_, by omega⟩
    change some n = some (n - 1 + 1)
    rw [Nat.sub_add_cancel hn]
  | some most =>
    have h0 : 0 < most := Nat.pos_of_ne_zero fun h0 => hm (by rw [hp, h0])
    refine ⟨min n most - 1, ?_, by omega⟩
    change some (min n most) = some (min n most - 1 + 1)
    rw [Nat.sub_add_cancel (by omega)]

theorem Works.writeFor (h : s.Works) {fuel : Nat} {bs : List UInt8} (hl : bs.length ≤ fuel) :
    writeFor fuel s bs = (.all, s.take bs) := by
  induction fuel generalizing s bs with
  | zero =>
    obtain rfl : bs = [] := List.length_eq_zero_iff.1 (Nat.le_zero.1 hl)
    rw [Sink.writeFor, h.take_nil]
  | succ fuel ih =>
    cases bs with
    | nil => rw [Sink.writeFor, h.take_nil]
    | cons b bs =>
      obtain ⟨k, hk, hn⟩ := h.grant (n := (b :: bs).length) (Nat.succ_pos _)
      have hd : ((b :: bs).drop (k + 1)).length ≤ fuel := by
        rw [List.length_drop]
        omega
      rw [Sink.writeFor, hk]
      · change Sink.writeFor fuel (s.take ((b :: bs).take (k + 1))) ((b :: bs).drop (k + 1)) = _
        rw [ih (h.take _) hd, h.take_take, List.take_append_drop]
      · exact List.cons_ne_nil b bs

/-- **A peer that works takes all that is written.** -/
theorem Works.write (h : s.Works) (bs : List UInt8) : s.write bs = (.all, s.take bs) :=
  h.writeFor (Nat.le_refl _)

end Stream.Sink

namespace Client

variable {c c' d : Client} {n : Nat} {waiter : Option Waiter} {m : ClientMessage} {e : Failure}

/-- What the frame of a message is made of. -/
def parcel (c : Client) (m : ClientMessage) : Parcel :=
  ⟨.request, c.encoding, c.encoding.print m.toValue⟩

theorem frameOf?_eq_ok (h : (c.parcel m).length ≤ c.config.frameLimit.toNat) :
    c.frameOf? m = .ok (c.parcel m).frame.toBytes := by
  have hp := Parcel.length_lt h
  have hx : ¬ c.config.frameLimit < (c.parcel m).frame.header.length := by
    rw [UInt32.lt_iff_toNat_lt, Parcel.toNat_length hp]
    omega
  have ho : Header.ofPayload? .request c.encoding (c.encoding.print m.toValue).length =
      .ok (c.parcel m).frame.header := if_pos hp
  unfold frameOf?
  dsimp only
  rw [ho]
  exact if_neg hx

theorem frameOf?_eq_error (h : c.config.frameLimit.toNat < (c.parcel m).length) :
    ∃ fault, c.frameOf? m = .error (.invalidArgument fault) := by
  by_cases hp : (c.parcel m).length < 0x100000000
  · have hx : c.config.frameLimit < (c.parcel m).frame.header.length := by
      rw [UInt32.lt_iff_toNat_lt, Parcel.toNat_length hp]
      exact h
    have ho : Header.ofPayload? .request c.encoding (c.encoding.print m.toValue).length =
        .ok (c.parcel m).frame.header := if_pos hp
    unfold frameOf?
    dsimp only
    rw [ho]
    exact ⟨_, if_pos hx⟩
  · have ho : Header.ofPayload? .request c.encoding (c.encoding.print m.toValue).length =
        .error (.invalidArgument (.payloadTooLarge (c.encoding.print m.toValue).length)) := if_neg hp
    unfold frameOf?
    dsimp only
    rw [ho]
    exact ⟨_, rfl⟩

/-! ### What follows a sending -/

/-- A client that has only written down more since; its peer has taken nothing. -/
structure Logs (c c' : Client) : Prop where
  taken : c'.peer.taken = c.peer.taken
  journal : c.journal <+: c'.journal

theorem Logs.refl (c : Client) : c.Logs c := ⟨rfl, List.prefix_rfl⟩

theorem Logs.trans (h : c.Logs d) (h' : d.Logs c') : c.Logs c' :=
  ⟨h'.taken.trans h.taken, h.journal.trans h'.journal⟩

theorem Logs.of_core (h : c.core = c'.core) : c.Logs c' := by
  have ht := congrArg (fun d : Client => d.peer.taken) h
  have hj := congrArg Client.journal h
  exact ⟨ht.symm, hj ▸ List.prefix_rfl⟩

theorem logs_record (c : Client) (i : Incident) : c.Logs (c.record i) :=
  ⟨rfl, List.prefix_append _ _⟩

theorem logs_forget (c : Client) (w : Waiter) : c.Logs (c.forget w) :=
  ⟨rfl, List.prefix_append _ _⟩

theorem logs_leaveWritePath (c : Client) : c.Logs c.leaveWritePath := by
  have hy : c.Logs c.yield := ⟨rfl, List.prefix_rfl⟩
  exact hy.trans (.of_core (core_leaveWritePath c).symm)

theorem logs_leaveIfAny (c : Client) (waiter : Option Waiter) :
    c.Logs (c.leaveIfAny waiter) := by
  cases waiter with
  | none => exact .refl c
  | some w => exact (logs_forget c w).trans (.of_core (core_leave c w).symm)

theorem logs_conclude (c : Client) (n : Nat) (w : Waiter) (r : Except Failure Reply) :
    c.Logs (c.conclude n w r) := by
  cases r with
  | error e => exact (logs_forget c w).trans ⟨rfl, List.prefix_rfl⟩
  | ok reply =>
    have ha : c.Logs ((c.forget w).record (.answered n reply)) :=
      (logs_forget c w).trans (logs_record _ _)
    unfold conclude
    dsimp only
    split
    · exact (ha.trans (logs_record _ (.rejected w.id))).trans ⟨rfl, List.prefix_rfl⟩
    · exact ha.trans ⟨rfl, List.prefix_rfl⟩

theorem logs_awaitReply (c : Client) (n : Nat) (w : Waiter) (due : Nat) :
    c.Logs (c.awaitReply n w due) := by
  unfold awaitReply
  split
  next r hr =>
    have hc : c.Logs (c.clearTimer n) := ⟨rfl, List.prefix_rfl⟩
    exact (hc.trans (logs_conclude _ n w r)).trans (.of_core (core_wakeDecided _).symm)
  next => exact .of_core (core_setTimer c n due).symm

theorem logs_afterSending (c : Client) (n : Nat) (waiter : Option Waiter) :
    (c.record (.sent n c.now)).Logs (c.afterSending n waiter) := by
  have hc : (c.record (.sent n c.now)).Logs ((c.record (.sent n c.now)).clearTimer n) :=
    ⟨rfl, List.prefix_rfl⟩
  have hl := hc.trans (logs_leaveWritePath _)
  unfold afterSending
  dsimp only
  generalize ((c.record (.sent n c.now)).clearTimer n).leaveWritePath = d at hl ⊢
  cases waiter with
  | none => exact hl.trans ⟨rfl, List.prefix_rfl⟩
  | some w =>
    have hs : d.Logs (d.setStage n (.await w d.requestDue)) := ⟨rfl, List.prefix_rfl⟩
    exact (hl.trans hs).trans (logs_awaitReply _ n w _)

theorem logs_failSending (c : Client) (n : Nat) (waiter : Option Waiter)
    (he : e.endsConnection = false) :
    (c.record (.unsent n e)).Logs (c.failSending n waiter e) := by
  have hc : (c.record (.unsent n e)).Logs ((c.record (.unsent n e)).clearTimer n) :=
    ⟨rfl, List.prefix_rfl⟩
  have hl := (hc.trans (logs_leaveWritePath _)).trans (logs_leaveIfAny _ waiter)
  unfold failSending
  dsimp only
  rw [he]
  exact hl.trans ⟨rfl, List.prefix_rfl⟩

/-! ### Sending a message -/

theorem sent_writeOn (hp : c.peer.Works) (n : Nat) (s : Sending) :
    (c.writeOn n s).peer.taken = c.peer.taken ++ s.rest ∧
    c.journal ++ [.sent n c.now] <+: (c.writeOn n s).journal := by
  have hr : (c.peer.take s.rest).onFlush = .ready := hp.flushing
  have hs := logs_afterSending ({ c with peer := c.peer.take s.rest }.sendRest n
    { s with rest := [] }) n s.waiter
  unfold writeOn
  rw [hp.write]
  dsimp only [Stream.Written.rest]
  rw [hr]
  exact ⟨hs.taken, hs.journal⟩

/-- **A frame within the limit goes out as a whole.** -/
theorem sent_sendMessage (hw : c.write.half = .held) (hp : c.peer.Works)
    (hl : (c.parcel m).length ≤ c.config.frameLimit.toNat) :
    (c.sendMessage n waiter m).peer.taken = c.peer.taken ++ (c.parcel m).frame.toBytes ∧
    c.journal ++ [.sending n m, .sent n c.now] <+: (c.sendMessage n waiter m).journal := by
  have hf : (c.record (.sending n m)).frameOf? m = .ok (c.parcel m).frame.toBytes :=
    frameOf?_eq_ok hl
  have hh : (c.record (.sending n m)).write.half = .held := hw
  unfold sendMessage
  dsimp only
  rw [hf]
  dsimp only
  rw [if_pos hh]
  generalize hs : (⟨(c.parcel m).frame.toBytes, (c.parcel m).frame.toBytes.length, waiter,
    (c.record (.sending n m)).requestDue⟩ : Sending) = s
  have hd : ((c.record (.sending n m)).setStage n (.send s)).peer.Works := hp
  obtain ⟨ht, hj⟩ := sent_writeOn hd n s
  have hb : s.rest = (c.parcel m).frame.toBytes := by rw [← hs]
  rw [hb] at ht
  have hj : c.journal ++ [.sending n m] ++ [.sent n c.now] <+: _ := hj
  rw [List.append_assoc] at hj
  exact ⟨ht, hj⟩

/-- **A frame above the limit fails with an invalid argument, and nothing is written.** -/
theorem unsent_sendMessage (hl : c.config.frameLimit.toNat < (c.parcel m).length) :
    (c.sendMessage n waiter m).peer.taken = c.peer.taken ∧
    ∃ fault, c.journal ++ [.sending n m, .unsent n (.invalidArgument fault)] <+:
      (c.sendMessage n waiter m).journal := by
  have hl' : (c.record (.sending n m)).config.frameLimit.toNat <
      ((c.record (.sending n m)).parcel m).length := hl
  obtain ⟨fault, hf⟩ := frameOf?_eq_error hl'
  have hs := logs_failSending (c.record (.sending n m)) n waiter (e := .invalidArgument fault) rfl
  have hj : c.journal ++ [.sending n m] ++ [.unsent n (.invalidArgument fault)] <+: _ := hs.journal
  unfold sendMessage
  dsimp only
  rw [hf]
  rw [List.append_assoc] at hj
  exact ⟨hs.taken, fault, hj⟩

/-- **One limit holds in both directions.** A payload has a frame as long as its length has 32 bits.
Frames within the limit of a buffer come out of it as what they were made of, however their bytes are
cut into pushes. And a message goes out to a peer that works exactly if a buffer of the same limit
accepts its frame; otherwise nothing is written, and the sending fails with an invalid argument. -/
theorem limits_agree :
    (∀ p : Parcel,
      (p.payload.length ≤ 0xfffffffd → ∃ f : Frame, p.encode? = .ok f.toBytes ∧
        f.parcel? = some p ∧ f.header.length.toNat = p.payload.length + 2) ∧
      (0xfffffffd < p.payload.length →
        p.encode? = .error (.invalidArgument (.payloadTooLarge p.payload.length)))) ∧
    (∀ (limit : UInt32) (parcels : List Parcel),
      (∀ p ∈ parcels, p.payload.length + 2 ≤ limit.toNat) →
      ∃ encodings, parcels.mapM Parcel.encode? = .ok encodings ∧
        ∀ chunks : List (List UInt8), chunks.flatten = encodings.flatten →
          ∃ (given : List (List Frame)) (b : Buffer),
            (Buffer.empty limit).pushAll chunks = (given.map .ok, b) ∧
            given.flatten.map Frame.parcel? = parcels.map some ∧
            b = Buffer.empty limit ∧ b.size = 0 ∧ b.hasPartial = false) ∧
    (∀ (c : Client) (n : Nat) (waiter : Option Waiter) (m : ClientMessage),
      c.write.half = .held → c.peer.Works →
      (∀ bytes, (c.parcel m).encode? = .ok bytes → Buffer.Accepts c.config.frameLimit bytes →
        (c.sendMessage n waiter m).peer.taken = c.peer.taken ++ bytes ∧
        c.journal ++ [.sending n m, .sent n c.now] <+: (c.sendMessage n waiter m).journal) ∧
      ((¬ ∃ bytes, (c.parcel m).encode? = .ok bytes ∧ Buffer.Accepts c.config.frameLimit bytes) →
        (c.sendMessage n waiter m).peer.taken = c.peer.taken ∧
        ∃ fault, c.journal ++ [.sending n m, .unsent n (.invalidArgument fault)] <+:
          (c.sendMessage n waiter m).journal)) := by
  refine ⟨fun p => ⟨fun h => ?_, fun h => ?_⟩, fun limit parcels h => ?_, fun c n waiter m hw hp =>
    ⟨fun bytes he ht => ?_, fun hn => ?_⟩⟩
  · have hl : p.length < 0x100000000 := by
      unfold Parcel.length minFrameLength
      omega
    exact ⟨p.frame, by rw [p.encode?_eq, if_pos hl], p.parcel?_frame, Parcel.toNat_length hl⟩
  · have hl : ¬ p.length < 0x100000000 := by
      unfold Parcel.length minFrameLength
      omega
    rw [p.encode?_eq, if_neg hl]
  · refine ⟨_, Parcel.mapM_encode? h, fun chunks hc => ?_⟩
    obtain ⟨given, hp, hg⟩ := Buffer.pushAll_parcels h hc
    refine ⟨given, _, hp, ?_, rfl, rfl, rfl⟩
    rw [hg, List.map_map]
    exact List.map_congr_left fun p _ => p.parcel?_frame
  · have hl := (Buffer.accepts_iff _).1 ⟨bytes, he, ht⟩
    rw [Parcel.encode?_eq, if_pos (Parcel.length_lt hl)] at he
    obtain rfl := Except.ok.inj he
    exact sent_sendMessage hw hp hl
  · exact unsent_sendMessage (Nat.lt_of_not_le fun hl => hn ((Buffer.accepts_iff _).2 hl))

/-- A client with a limit that has been connected to a peer that takes everything. -/
def linked (limit : UInt32) : Client :=
  (initial { Config.default with frameLimit := limit }).performAll
    [.start .connect, .feed [.chunk ([0, 1, 1] ++ List.replicate 16 7)]]

/-- The frame of a ping has the length 18. -/
theorem limits_agree_linked :
    ((linked 18).sendMessage 0 none (.ping "1")).peer.taken = (linked 18).peer.taken ++
      [0, 0, 0, 18, 1, 1, 0x82, 0xa4, 0x74, 0x79, 0x70, 0x65, 0xa4, 0x70, 0x69, 0x6e, 0x67,
        0xa2, 0x69, 0x64, 0xa1, 0x31] ∧
    ((linked 17).sendMessage 0 none (.ping "1")).peer.taken = (linked 17).peer.taken ∧
    ∃ (given : List (List Frame)) (b : Buffer),
      (Buffer.empty 4).pushAll [[0, 0, 0], [2, 3, 1, 0, 0, 0, 4, 1], [2, 0x7b, 0x7d]] =
        (given.map .ok, b) ∧
      given.flatten.map Frame.parcel? =
        [some ⟨.notification, .messagePack, []⟩, some ⟨.request, .json, [0x7b, 0x7d]⟩] ∧
      b = Buffer.empty 4 ∧ b.size = 0 ∧ b.hasPartial = false := by
  obtain ⟨-, hframes, hsends⟩ := limits_agree
  refine ⟨?_, ?_, ?_⟩
  · have hw : (linked 18).write.half = .held := by decide +kernel
    have hp : (linked 18).peer.Works := by decide +kernel
    have hl : ((linked 18).parcel (.ping "1")).length ≤ (linked 18).config.frameLimit.toNat := by
      decide +kernel
    have hb : ((linked 18).parcel (.ping "1")).encode? = .ok [0, 0, 0, 18, 1, 1, 0x82, 0xa4, 0x74,
        0x79, 0x70, 0x65, 0xa4, 0x70, 0x69, 0x6e, 0x67, 0xa2, 0x69, 0x64, 0xa1, 0x31] := by
      decide +kernel
    obtain ⟨bytes, he, ht⟩ := (Buffer.accepts_iff _).2 hl
    cases hb.symm.trans he
    exact ((hsends (linked 18) 0 none (.ping "1") hw hp).1 _ he ht).1
  · have hw : (linked 17).write.half = .held := by decide +kernel
    have hp : (linked 17).peer.Works := by decide +kernel
    have hl : ¬ ((linked 17).parcel (.ping "1")).length ≤ (linked 17).config.frameLimit.toNat := by
      decide +kernel
    exact ((hsends (linked 17) 0 none (.ping "1") hw hp).2
      fun h => hl ((Buffer.accepts_iff _).1 h)).1
  · obtain ⟨encodings, he, hc⟩ := hframes 4
      [⟨.notification, .messagePack, []⟩, ⟨.request, .json, [0x7b, 0x7d]⟩] (by decide)
    have hb : encodings = [[0, 0, 0, 2, 3, 1], [0, 0, 0, 4, 1, 2, 0x7b, 0x7d]] :=
      (Except.ok.inj he).symm
    exact hc _ (by rw [hb]; rfl)

end Client

end DocWire
