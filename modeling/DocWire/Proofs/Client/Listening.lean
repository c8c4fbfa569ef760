import DocWire.Proofs.Client.Opening
import DocWire.Proofs.Frame.Streams

/-! # The reader and the framing

A connection that is not ended from this side lasts exactly as long as its framing holds. The reader
takes the frames that the stream begins with, each once and in order, whatever is in them: a frame that
cannot be understood is passed over, and so is a callback that fails. It closes the connection where
the stream stops, which is at a header out of bounds, at its end or at an error, and only after all
frames before that point (`Possible.listens`). -/

namespace DocWire

open DocWire.Stream (Source Sent)

/-- Whether a stream stops behind the frames that its bytes begin with: it ends or fails, or it goes on
with a header that is out of bounds. -/
def Frame.Ending.Stops (e : Frame.Ending) (limit : UInt32) (rest : List UInt8) : Prop :=
  e ≠ .open ∨ ∃ fault, Frame.Refused limit rest fault

namespace Client

open DocWire.Frame (Ending Splits Refused Decided)

variable {b c c' : Client} {config : Config} {n : Nat} {e e' : Ending} {limit : UInt32}
  {data rest : List UInt8} {frames : List Frame} {fed : List Sent} {buffer : Frame.Buffer}
  {chunks : List (List UInt8)}

/-! ### Runs that do not end the connection from this side -/

/-- Whether what happens from outside ends the connection: the client is let go, or a call is given up
that leaves a frame half written. -/
def HangsUp (c : Client) : Action → Prop
  | .part | .drop => True
  | .cancel n => (∃ s, c.stage n = .send s) ∧ c.write.torn = true
  | _ => False

/-- Whether a task ends the connection when it takes its turn: a call disconnects, or its sending fails
in a way that ends the connection. -/
def Quits (c : Client) : Task → Prop
  | .reader => False
  | .call n => c.stage n = .fresh ∧ c.job n = .disconnect ∨
    ∃ e : Failure, e.endsConnection = true ∧ .unsent n e ∈ (c.turn (.call n)).journal

/-- What a client comes to after the peer has sent something more, if nothing ends the connection from
this side as long as it is open. The reader may take up as many frames in a row as it likes. -/
inductive Listens (b : Client) : List Sent → Client → Prop
  | start : Listens b [] b
  | feed {fed : List Sent} {c : Client} (h : Listens b fed c) (more : List Sent) :
      Listens b (fed ++ more) (c.act (.feed more))
  | act {fed : List Sent} {c : Client} (h : Listens b fed c) (a : Action)
      (hf : ∀ more, a ≠ .feed more) (hn : c.life = .connected → ¬ c.HangsUp a) :
      Listens b fed (c.act a)
  | turn {fed : List Sent} {c : Client} (h : Listens b fed c) (t : Task)
      (hn : c.life = .connected → ¬ c.Quits t) : Listens b fed (c.turn t)
  | overlook {fed : List Sent} {c : Client} (h : Listens b fed c) (count : Nat) :
      Listens b fed (c.overlook count)

theorem Listens.onward (h : b.Listens fed c) : b.Onward c := by
  induction h with
  | start => exact .refl b
  | feed _ more ih => exact ih.act _
  | act _ a _ _ ih => exact ih.act a
  | turn _ t _ ih => exact ih.turn t
  | overlook _ count ih => exact ih.overlook count

/-! ### The reader has closed the connection -/

/-- The reader is about to close the connection, or has ended and closed it. -/
def ReaderCloses (c : Client) : Prop :=
  c.reader = .closeLock ∨ c.reader = .closeShutdown ∨ c.reader = .ended ∧ c.life = .closed

theorem ReaderCloses.isPast (h : c.ReaderCloses) (hl : Lawful c) : c.life.IsPast := by
  rcases h with h | h | ⟨-, h⟩
  · exact hl.closes.reader (.inl h)
  · exact hl.closes.reader (.inr h)
  · exact .inr h

theorem ReaderCloses.ne_reading (h : c.ReaderCloses) (buffer : Frame.Buffer) :
    c.reader ≠ .reading buffer := by
  rcases h with h | h | ⟨h, -⟩ <;> rw [h] <;> nofun

theorem ReaderCloses.move (h : c.ReaderCloses) (hl : Lawful c) (hm : c.Move c') :
    c'.ReaderCloses := by
  have hp := h.isPast hl
  have keep : c'.reader = c.reader → c'.ReaderCloses := fun he => by
    rcases h with h | h | ⟨h, hc⟩
    · exact .inl (he.trans h)
    · exact .inr (.inl (he.trans h))
    · refine .inr (.inr ⟨he.trans h, ?_⟩)
      cases hl.closes.ages hl.guarded hm with
      | same hx => exact hx.trans hc
      | opens hx _ => exact absurd hx hp.ne_unconnected
      | closing hx _ _ => exact absurd hx hp.ne_connected
      | closed _ hx => exact hx
  have made : c.session ≠ none := (hl.closes.begun hp.ne_unconnected).1
  have never : ∀ {n e due}, c.stage n ≠ .handshake e due := fun hs =>
    absurd (hl.closes.unconnected_of_handshake hl.guarded hs) hp.ne_unconnected
  cases hm with
  | quiet hq => exact keep (reader_eq hq).symm
  | establish hs | miss hs | abandon hs => exact absurd hs never
  | refuse hs hj hu => exact absurd (hl.guarded.young (.inl hu)) made
  | begin he hf hw =>
    have hq := reader_of_outline he.outline
    exact keep hq
  | @fail c₁ _ n waiter e hs he hf =>
    have hq := reader_of_outline (outline_forgetAny (c₁.record (.unsent n e)).yield waiter)
    have hq' := reader_of_outline hs.outline
    cases hf <;> exact keep (hq.trans hq')
  | @conclude n due w r hs ho =>
    obtain ⟨r', hq⟩ := outline_conclude c n w r
    have hq := reader_of_outline hq
    exact keep hq
  | @dropSend n s hs =>
    have hq := reader_of_outline (outline_forgetAny c s.waiter)
    exact keep hq
  | close hk hc => exact absurd hc hp.ne_connected
  | @takeHalf t k hs hh hw =>
    cases t with
    | reader => exact .inr (.inl rfl)
    | call n => exact keep rfl
  | endReader _ hr =>
    rcases hr with hr | ⟨buffer, hr⟩
    · exact .inr (.inr ⟨rfl, hr⟩)
    · exact absurd hr (h.ne_reading _)
  | keepReading hr => exact absurd hr (h.ne_reading _)
  | route hr => exact absurd hr (h.ne_reading _)
  | _ => exact keep rfl

/-- The reader closes the connection, and has routed all frames before the point at which the stream
stops. -/
structure Over (limit : UInt32) (e : Ending) (data : List UInt8) (c : Client) : Prop where
  closes : c.ReaderCloses
  stops : ∃ rest, Splits limit data c.received rest ∧ e.Stops limit rest

theorem Over.move (hl : Lawful c) (hm : c.Move c') (h : Over limit e data c) :
    Over limit e data c' :=
  ⟨h.closes.move hl hm, by
    rw [hm.received_eq h.closes.ne_reading]
    exact h.stops⟩

theorem Over.onward (h : Over limit e data c) (hl : Lawful c) (h' : c.Onward c') :
    Over limit e data c' :=
  h'.induct_lawful (P := Over limit e data) Over.move (fun _ _ h => ⟨h.closes, h.stops⟩) hl h

/-- What comes after the point at which the stream stops changes nothing. -/
theorem Over.feed (h : Over limit e data c) {added : List UInt8}
    (ha : e ≠ .open → e' ≠ .open ∧ added = []) : Over limit e' (data ++ added) c := by
  obtain ⟨rest, hs, hx⟩ := h.stops
  refine ⟨h.closes, ?_⟩
  by_cases ho : e = .open
  · obtain ⟨fault, hr⟩ := hx.resolve_left (fun hn => hn ho)
    have hs' := hs.append (.of_refused (hr.append added))
    rw [List.append_nil] at hs'
    exact ⟨_, hs', .inr ⟨fault, hr.append added⟩⟩
  · obtain ⟨ho', rfl⟩ := ha ho
    rw [List.append_nil]
    exact ⟨rest, hs, .inl ho'⟩

/-! ### The reader at work -/

/-- The connection is open, and its reader reads and has not been asked to stop. -/
structure Awake (c : Client) : Prop where
  life : c.life = .connected
  held : c.held = true
  reading : ∃ b, c.reader = .reading b
  unasked : c.stopAsked = false

theorem awake_of_keel (h : c.Awake) (hk : c'.keel = c.keel) : c'.Awake := by
  have hh := congrArg held hk
  have hd := congrArg reader hk
  have ha := congrArg stopAsked hk
  obtain ⟨b, hb⟩ := h.reading
  exact ⟨(life_of_keel hk).trans h.life, hh.trans h.held, ⟨b, hd.trans hb⟩, ha.trans h.unasked⟩

theorem source_of_keel (hk : c'.keel = c.keel) : c'.source = c.source := by
  have hs := congrArg source hk
  exact hs

/-- The reader has routed the frames in front, and has the other bytes in its buffer or still to
read. -/
structure Attends (limit : UInt32) (e : Ending) (data : List UInt8) (c : Client)
    (buffer : Frame.Buffer) (chunks : List (List UInt8)) : Prop extends Awake c where
  sound : buffer.Sound
  bound : buffer.limit = limit
  source : c.source = e.stream chunks
  legal : ∀ f ∈ c.received, f.Legal limit
  data : c.received.flatMap Frame.toBytes ++ (buffer.held ++ chunks.flatten) = data

/-- All frames have been routed, and more may come. -/
def Idle (limit : UInt32) (e : Ending) (buffer : Frame.Buffer) (chunks : List (List UInt8)) : Prop :=
  e = .open ∧ ¬ Decided limit (buffer.held ++ chunks.flatten)

/-- Routing a frame leaves the connection as it is, whatever is in the frame. -/
theorem keel_route (c : Client) (f : Frame) : (c.route f).keel = c.keel := by
  have hr : ∀ (d : Client) id isError reply, (d.resolve id isError reply).keel = d.keel := by
    intro d id isError reply
    unfold resolve
    split
    · rfl
    next slot correlator _ =>
      exact (Undisturbed.refl (({ d with correlator := correlator } : Client).handOver id isError
        reply slot)).wakeCalls _ |>.keel
  have hd : ∀ (d : Client) note, (d.dispatch note).keel = d.keel := by
    intro d note
    unfold dispatch
    split <;> rfl
  unfold Client.route
  dsimp only
  split
  · rfl
  · unfold routePayload
    split
    · rfl
    · split
      · rfl
      · split
        · split
          · exact hd _ _
          · rfl
        · exact hr _ _ _ _

namespace Attends

/-- What happens beside the reader does not concern it. -/
theorem congr (h : Attends limit e data c buffer chunks) (hk : c'.keel = c.keel)
    (hr : c'.received = c.received) : Attends limit e data c' buffer chunks :=
  ⟨awake_of_keel h.toAwake hk, h.sound, h.bound, (source_of_keel hk).trans h.source, hr ▸ h.legal,
    hr ▸ h.data⟩

theorem isAlive (h : Attends limit e data c buffer chunks) : c.isAlive = true := by
  unfold Client.isAlive
  rw [h.held]
  rfl

theorem splits (h : Attends limit e data c buffer chunks)
    (hn : ∀ (f : Frame) more, f.Legal limit → buffer.held ++ chunks.flatten ≠ f.toBytes ++ more) :
    Splits limit data c.received (buffer.held ++ chunks.flatten) := ⟨h.data, h.legal, hn⟩

theorem route (h : Attends limit e data c buffer chunks) {f : Frame} {buffer' : Frame.Buffer}
    {chunks' : List (List UInt8)} (hf : f.Legal limit) (hs : buffer'.Sound)
    (hl : buffer'.limit = limit)
    (hb : buffer.held ++ chunks.flatten = f.toBytes ++ (buffer'.held ++ chunks'.flatten)) :
    Attends limit e data ({ c with source := e.stream chunks' }.route f) buffer' chunks' := by
  have hk := keel_route { c with source := e.stream chunks' } f
  have hr : ({ c with source := e.stream chunks' }.route f).received = c.received ++ [f] :=
    received_route _ f
  have hw : ({ c with source := e.stream chunks' } : Client).Awake :=
    ⟨h.life, h.held, h.reading, h.unasked⟩
  refine ⟨awake_of_keel hw hk, hs, hl, source_of_keel hk, fun g hg => ?_, ?_⟩
  · rw [hr] at hg
    rcases List.mem_append.1 hg with hg | hg
    · exact h.legal g hg
    · rwa [List.mem_singleton.1 hg]
  · rw [hr, List.flatMap_append, List.flatMap_singleton, List.append_assoc, ← hb]
    exact h.data

/-- The stream stops, and the reader closes the connection. -/
theorem closeReader (h : Attends limit e data c buffer chunks) (hl : Lawful c) (source : Source)
    (hn : ∀ (f : Frame) more, f.Legal limit → buffer.held ++ chunks.flatten ≠ f.toBytes ++ more)
    (hx : e.Stops limit (buffer.held ++ chunks.flatten)) :
    Over limit e data ({ c with source := source }.closeReader) := by
  obtain ⟨b, hr⟩ := h.reading
  have hq : c.Move { c with source := source } := .quiet rfl
  have hk : ({ c with source := source } : Client).MayClose (.finish (.ok .done)) .reader := ⟨b, hr⟩
  have hm : ({ c with source := source } : Client).Move
      (({ c with source := source } : Client).toCloseLock (.finish (.ok .done)) .reader).breakOff :=
    .close hk h.life
  have ho : Over limit e data
      (({ c with source := source } : Client).toCloseLock (.finish (.ok .done)) .reader).breakOff := by
    refine ⟨.inl rfl, _, ?_, hx⟩
    have hr : (({ c with source := source } : Client).toCloseLock (.finish (.ok .done))
        .reader).breakOff.received = c.received := received_of_append rfl (by simp [Incident.frame?])
    rw [hr]
    exact h.splits hn
  unfold Client.closeReader close
  rw [if_pos h.life]
  exact (moves_afterBreakOff (inCloseLock_toCloseLock hk)).induct_lawful Over.move
    (.move hm (.move hq hl)) ho

/-- Nothing is left to route for a reader that waits. -/
theorem waits (h : Attends limit e data c buffer chunks) {buffer' : Frame.Buffer} {source : Source}
    (hw : buffer.next (e.stream chunks) = (.waiting, buffer', source)) :
    Attends limit e data { c with source := source, reader := .reading buffer' } buffer' [] ∧
      Idle limit e buffer' [] := by
  obtain ⟨ho, hd, hb, hs, hs', hl⟩ := h.sound.waits hw
  have hb' : buffer'.held ++ ([] : List (List UInt8)).flatten = buffer.held ++ chunks.flatten := by
    rw [List.flatten_nil, List.append_nil, hb]
  refine ⟨⟨⟨h.life, h.held, ⟨_, rfl⟩, h.unasked⟩, hs', hl.trans h.bound, hs, h.legal, ?_⟩, ho, ?_⟩
  · rw [hb']
    exact h.data
  · rw [hb', ← h.bound]
    exact hd

/-- **What the reader comes to when it takes up frames**: it waits for more, or has used up its fuel, or
has come to the point at which the stream stops. -/
theorem readFrames (h : Attends limit e data c buffer chunks) (hl : Lawful c) (fuel : Nat) :
    (∃ buffer' chunks', Attends limit e data (c.readFrames fuel buffer) buffer' chunks' ∧
      (c.readFrames fuel buffer).reader = .reading buffer' ∧
      (Idle limit e buffer' chunks' ∨ ¬ Idle limit e buffer chunks ∧
        Header.size * fuel ≤ (buffer.held ++ chunks.flatten).length)) ∨
    Over limit e data (c.readFrames fuel buffer) := by
  induction fuel generalizing c buffer chunks with
  | zero =>
    refine .inl ⟨buffer, chunks, ⟨⟨h.life, h.held, ⟨_, rfl⟩, h.unasked⟩, h.sound, h.bound, h.source,
      h.legal, h.data⟩, rfl, ?_⟩
    by_cases hi : Idle limit e buffer chunks
    · exact .inl hi
    · exact .inr ⟨hi, Nat.zero_le _⟩
  | succ fuel ih =>
    have ht := Frame.Buffer.takes_next h.sound e chunks
    unfold Client.readFrames
    rw [h.source]
    generalize hn : buffer.next (e.stream chunks) = out at ht
    cases ht with
    | @frame f buffer' chunks' hf hs hl' hb =>
      dsimp only
      rw [if_pos h.isAlive]
      rw [h.bound] at hf hl'
      obtain ⟨b, hr⟩ := h.reading
      have hq : c.Move { c with source := e.stream chunks' } := .quiet rfl
      have hm := Move.route (c := { c with source := e.stream chunks' }) hr h.isAlive f
      rcases ih (h.route hf hs hl' hb) (.move hm (.move hq hl)) with
        ⟨buffer'', chunks'', ha, hr', hi⟩ | ho
      · refine .inl ⟨buffer'', chunks'', ha, hr', hi.imp_right fun hx => ⟨fun hi => ?_, ?_⟩⟩
        · exact hi.2 (.inl ⟨f, _, hf, hb⟩)
        · have hx := hx.2
          have hz := f.length_toBytes
          rw [hb, List.length_append, Nat.mul_succ]
          omega
      · exact .inr ho
    | @refused fault buffer' source hr hc =>
      dsimp only
      rw [if_pos h.isAlive]
      rw [h.bound] at hr
      exact .inr (h.closeReader hl source (fun _ _ hf => hr.ne_toBytes hf) (.inr ⟨fault, hr⟩))
    | @stopped buffer' source hd =>
      have hn' : ∀ (f : Frame) more, f.Legal limit →
          buffer.held ++ chunks.flatten ≠ f.toBytes ++ more := fun f more hf hb =>
        hd (.inl ⟨f, more, h.bound ▸ hf, hb⟩)
      cases e with
      | «open» =>
        obtain ⟨ha, hi⟩ := h.waits hn
        exact .inl ⟨buffer', [], ha, rfl, .inl hi⟩
      | ended more =>
        have ho := h.closeReader hl source hn' (.inl (by simp))
        dsimp only [Ending.answer]
        by_cases hr : buffer.held ++ chunks.flatten = []
        · rw [if_pos hr]
          dsimp only
          rw [if_pos h.isAlive]
          exact .inr ho
        · rw [if_neg hr]
          dsimp only
          rw [if_pos h.isAlive]
          exact .inr ho
      | failed text more =>
        have ho := h.closeReader hl source hn' (.inl (by simp))
        dsimp only [Ending.answer]
        rw [if_pos h.isAlive]
        exact .inr ho

end Attends

/-! ### Over a run -/

/-- The reader reads, and either is about to go on or has nothing to route; or it has closed the
connection. -/
inductive Heeds (limit : UInt32) (e : Ending) (data : List UInt8) (c : Client) : Prop
  | reads {buffer : Frame.Buffer} {chunks : List (List UInt8)}
      (h : Attends limit e data c buffer chunks) (hr : c.reader = .reading buffer)
      (hw : .reader ∈ c.ready ∨ Idle limit e buffer chunks) : Heeds limit e data c
  | closed (h : Over limit e data c) : Heeds limit e data c

/-- A call that takes its turn and does not end the connection does not disturb it. -/
theorem Lawful.undisturbed_turn (hl : Lawful c) (hc : c.life = .connected)
    (hq : ¬ c.Quits (.call n)) : Undisturbed c (c.turn (.call n)) := by
  have hs : c.session ≠ none := (hl.closes.begun (by rw [hc]; nofun)).1
  have hx : ¬ IsClosingStage (c.stage n) := fun hk =>
    absurd hc (hl.closes.isPast_of_tearsDown (t := .call n) hk).ne_connected
  rcases hl.fares_turn hs (fun hf hj => hq (.inl ⟨hf, hj⟩)) hx with h | ⟨e, he, hu, -⟩
  · exact .of_spares h fun hr => hl.guarded.mem_ready_turn hl.closes hr nofun
  · exact absurd (.inr ⟨e, he, hu⟩) hq

/-- What happens from outside and does not end the connection does not disturb it, unless the peer
sends something. -/
theorem Lawful.undisturbed_act (hl : Lawful c) (hc : c.life = .connected) {a : Action}
    (hf : ∀ more, a ≠ .feed more) (hn : ¬ c.HangsUp a) : Undisturbed c (c.act a) := by
  cases a with
  | start job => exact .start c job
  | cancel n =>
    have hu : c.life ≠ .unconnected := by rw [hc]; nofun
    have hs := hl.spares_cancelCall (n := n) (hl.closes.begun hu).1
      (fun s hs => Bool.eq_false_iff.2 fun ht => hn ⟨⟨s, hs⟩, ht⟩) fun k hk =>
        absurd hc (hl.closes.isPast_of_inShutdown (t := .call n) hk).ne_connected
    refine .of_spares hs (((Tends.refl (.call n) c).cancelCall fun e due hs => ?_).ready _)
    exact hl.closes.unconnected_of_handshake hl.guarded hs
  | feed more => exact absurd rfl (hf more)
  | change d => exact .change c d
  | advance millis => exact .advance c millis
  | part | drop => exact absurd trivial hn

theorem mem_ready_feed (hr : c.reader = .reading buffer) (more : List Sent) :
    .reader ∈ (c.act (.feed more)).ready := by
  have hq := reader_eq (core_wakeCalls { c with source := c.source.feed more } Stage.inHandshake)
  unfold act wakeReaders
  dsimp only
  rw [hq]
  dsimp only
  rw [hr]
  exact (mem_wake _ _).2 (.inr rfl)

/-- The reader has nothing more to route, or has closed the connection. -/
inductive CaughtUp (limit : UInt32) (e : Ending) (data : List UInt8) (c : Client) : Prop
  | idle {buffer : Frame.Buffer} {chunks : List (List UInt8)}
      (h : Attends limit e data c buffer chunks) (hr : c.reader = .reading buffer)
      (hi : Idle limit e buffer chunks) : CaughtUp limit e data c
  | closed (h : Over limit e data c) : CaughtUp limit e data c

theorem CaughtUp.heeds (h : CaughtUp limit e data c) : Heeds limit e data c := by
  cases h with
  | idle h hr hi => exact .reads h hr (.inr hi)
  | closed h => exact .closed h

/-- All frames have been routed, and the point at which the stream stops has not been passed over. -/
theorem CaughtUp.received_eq (h : CaughtUp limit e data c) (hl : Lawful c)
    (hj : Splits limit data frames rest) :
    c.received = frames ∧ (e.Stops limit rest → c.life ≠ .connected) := by
  cases h with
  | idle h hr hi =>
    obtain ⟨rfl, rfl⟩ := (h.splits fun f more hf hb => hi.2 (.inl ⟨f, more, hf, hb⟩)).unique hj
    exact ⟨rfl, fun hx => absurd hx fun hx => hx.elim (fun hn => hn hi.1) fun hr => hi.2 (.inr hr)⟩
  | closed h =>
    obtain ⟨rest', hs, -⟩ := h.stops
    exact ⟨(hs.unique hj).1, fun _ => (h.closes.isPast hl).ne_connected⟩

namespace Heeds

/-- A reader that is not about to go on has caught up. -/
theorem caughtUp (h : Heeds limit e data c) (hr : .reader ∉ c.ready) : CaughtUp limit e data c := by
  cases h with
  | reads h hr' hw => exact .idle h hr' (hw.resolve_left hr)
  | closed h => exact .closed h

/-- What does not disturb the connection is not felt by the reader. -/
theorem undisturbed (h : Heeds limit e data c) (hl : Lawful c) (hg : c.Onward c')
    (hu : c.life = .connected → Undisturbed c c') : Heeds limit e data c' := by
  cases h with
  | reads h hr hw =>
    have hu := hu h.life
    have hd := congrArg reader hu.keel
    exact .reads (h.congr hu.keel hu.received) (hd.trans hr) (hw.imp_left hu.ready)
  | closed h => exact .closed (h.onward hl hg)

/-- **The turn of the reader** routes all frames that have come, or closes the connection. -/
theorem turn_reader (h : Heeds limit e data c) (hl : Lawful c) :
    CaughtUp limit e data (c.turn .reader) := by
  cases h with
  | @reads buffer chunks h hr hw =>
    have hq : c.Move { c with ready := c.ready.erase .reader } := .quiet rfl
    have h' : Attends limit e data { c with ready := c.ready.erase .reader } buffer chunks :=
      h.congr rfl rfl
    have ht : c.turn .reader = ({ c with ready := c.ready.erase .reader } : Client).readFrames
        (c.source.unread + buffer.weight + 1) buffer := by
      unfold Client.turn run runReader
      dsimp only
      rw [hr]
      dsimp only
      rw [h.unasked]
      rfl
    rw [ht]
    rcases h'.readFrames (.move hq hl) (c.source.unread + buffer.weight + 1) with
      ⟨buffer', chunks', ha, hr', hi | ⟨-, hx⟩⟩ | ho
    · exact .idle ha hr' hi
    · -- the fuel lasts, since every frame takes a header off the bytes
      have hb := buffer.length_held_le
      have hu := e.length_le_unread chunks
      rw [← h.source] at hu
      rw [List.length_append, Header.size] at hx
      rw [Header.size] at hb
      omega
    · exact .closed ho
  | closed h => exact .closed (h.onward hl ((Onward.refl c).turn .reader))

/-- Taking up frames beyond a turn does no harm either. -/
theorem overlook (h : Heeds limit e data c) (hl : Lawful c) (count : Nat) :
    Heeds limit e data (c.overlook count) := by
  cases h with
  | @reads buffer chunks h hr hw =>
    have ht : c.overlook count = c.readFrames count buffer := by
      unfold Client.overlook
      rw [hr]
    rw [ht]
    rcases h.readFrames hl count with ⟨buffer', chunks', ha, hr', hi | ⟨hi, -⟩⟩ | ho
    · exact .reads ha hr' (.inr hi)
    · refine .reads ha hr' (.inl ?_)
      exact ((Tends.refl .reader c).readFrames count buffer).ready _ (hw.resolve_right hi)
    · exact .closed ho
  | closed h => exact .closed (h.onward hl ((Onward.refl c).overlook count))

theorem feed (h : Heeds limit e data c) (hl : Lawful c) (more : List Sent)
    {added : List (List UInt8)}
    (hf : ∀ chunks, (e.stream chunks).feed more = e'.stream (chunks ++ added))
    (ho : e ≠ .open → e' ≠ .open ∧ added = []) :
    Heeds limit e' (data ++ added.flatten) (c.act (.feed more)) := by
  cases h with
  | @reads buffer chunks h hr hw =>
    have hs : c.source.feed more = e'.stream (chunks ++ added) := by rw [h.source, hf]
    have ha : Attends limit e' (data ++ added.flatten) { c with source := c.source.feed more }
        buffer (chunks ++ added) := by
      refine ⟨⟨h.life, h.held, h.reading, h.unasked⟩, h.sound, h.bound, hs, h.legal, ?_⟩
      rw [← h.data, List.flatten_append, List.append_assoc, List.append_assoc]
      rfl
    have hu : Undisturbed { c with source := c.source.feed more } (c.act (.feed more)) :=
      (Undisturbed.refl _).wakeReaders
    have hd := congrArg reader hu.keel
    exact .reads (ha.congr hu.keel hu.received) (hd.trans hr) (.inl (mem_ready_feed hr more))
  | closed h =>
    have h' := h.onward hl ((Onward.refl c).act (.feed more))
    refine .closed (h'.feed fun hx => ?_)
    obtain ⟨hx', rfl⟩ := ho hx
    exact ⟨hx', rfl⟩

end Heeds

theorem Opened.heeds (h : c.Opened) (hs : c.source = e.stream chunks) :
    Heeds c.config.frameLimit e chunks.flatten c := by
  have ha : Attends c.config.frameLimit e chunks.flatten c (.empty c.config.frameLimit) chunks := by
    refine ⟨⟨h.life, h.held, ⟨_, h.reader⟩, h.unasked⟩, Frame.Buffer.sound_empty _, rfl, hs, ?_, ?_⟩
    · rw [h.received]
      nofun
    · rw [h.received, Frame.Buffer.held_empty]
      rfl
  exact .reads ha h.reader (.inl h.ready)

/-- **The reader keeps to the stream over a run.** -/
theorem Listens.heeds (h : b.Listens fed c) (hl : Lawful b) (ho : b.Opened) :
    ∃ (e : Ending) (chunks : List (List UInt8)), b.source.feed fed = e.stream chunks ∧
      Heeds b.config.frameLimit e chunks.flatten c := by
  induction h with
  | start =>
    obtain ⟨e, chunks, hs⟩ := Ending.exists_stream b.source
    exact ⟨e, chunks, by rw [← hs, Source.feed, List.append_nil], ho.heeds hs⟩
  | @feed fed c h more ih =>
    obtain ⟨e, chunks, hs, hx⟩ := ih
    obtain ⟨e', added, hf, hn⟩ := e.exists_feed more
    refine ⟨e', chunks ++ added, ?_, ?_⟩
    · rw [← hf, ← hs, Source.feed, Source.feed, Source.feed, List.append_assoc]
    · rw [List.flatten_append]
      exact hx.feed (hl.onward h.onward) more hf hn
  | act h a hf hn ih =>
    obtain ⟨e, chunks, hs, hx⟩ := ih
    have hl' := hl.onward h.onward
    exact ⟨e, chunks, hs, hx.undisturbed hl' ((Onward.refl _).act a) fun hc =>
      hl'.undisturbed_act hc hf (hn hc)⟩
  | turn h t hn ih =>
    obtain ⟨e, chunks, hs, hx⟩ := ih
    have hl' := hl.onward h.onward
    refine ⟨e, chunks, hs, ?_⟩
    cases t with
    | reader => exact (hx.turn_reader hl').heeds
    | call n =>
      exact hx.undisturbed hl' ((Onward.refl _).turn _) fun hc => hl'.undisturbed_turn hc (hn hc)
  | overlook h count ih =>
    obtain ⟨e, chunks, hs, hx⟩ := ih
    exact ⟨e, chunks, hs, hx.overlook (hl.onward h.onward) count⟩

/-- What holds of a client to which these frames have come, and this rest behind them. Frames are
routed in the order in which they come, each once. The connection stays open as long as the stream
does not stop, and then its reader closes it, after all frames before that point. A reader that is
not about to go on has caught up with all this, and for one that is, its next turn is enough. -/
structure KeepsTo (c : Client) (limit : UInt32) (e : Ending) (frames : List Frame)
    (rest : List UInt8) : Prop where
  routed : c.received <+: frames
  stays : ¬ e.Stops limit rest → c.life = .connected
  closed : c.life ≠ .connected → c.ReaderCloses ∧ c.received = frames
  caughtUp : .reader ∉ c.ready → c.received = frames ∧ (e.Stops limit rest → c.life ≠ .connected)
  prompt : (c.turn .reader).received = frames ∧
    (e.Stops limit rest → (c.turn .reader).life ≠ .connected)

theorem Heeds.keepsTo (h : Heeds limit e data c) (hl : Lawful c) (hj : Splits limit data frames rest) :
    c.KeepsTo limit e frames rest := by
  have ht := (h.turn_reader hl).received_eq (hl.onward ((Onward.refl c).turn .reader)) hj
  have hr : .reader ∉ c.ready → _ := fun hr => (h.caughtUp hr).received_eq hl hj
  cases h with
  | @reads buffer chunks h =>
    obtain ⟨more, rest', hm⟩ := Frame.Buffer.exists_splits limit (buffer.held ++ chunks.flatten)
    have hd : Splits limit data (c.received ++ more) rest' := by
      rw [← h.data]
      exact hm.prepend h.legal
    obtain ⟨rfl, -⟩ := hd.unique hj
    exact ⟨⟨more, rfl⟩, fun _ => h.life, fun hx => absurd h.life hx, hr, ht⟩
  | closed h =>
    obtain ⟨rest', hs, hx⟩ := h.stops
    obtain ⟨rfl, rfl⟩ := hs.unique hj
    exact ⟨List.prefix_refl _, fun hn => absurd hx hn, fun _ => ⟨h.closes, rfl⟩, hr, ht⟩

/-- **Nothing in a frame ends a connection, and whatever breaks the framing does.** -/
theorem Possible.listens {a : Client} (h : Possible config a) (hu : a.life = .unconnected)
    (hg : a.Goes b) (hc : b.life = .connected) (hr : b.Listens fed c)
    (hs : b.source.feed fed = e.stream chunks)
    (hj : Splits b.config.frameLimit chunks.flatten frames rest) :
    c.KeepsTo b.config.frameLimit e frames rest := by
  have hl : Lawful b := (h.onward (Relation.ReflTransGen.single hg)).lawful
  obtain ⟨e', chunks', hs', hx⟩ := hr.heeds hl (h.opened hu hg hc)
  obtain ⟨rfl, rfl⟩ := Ending.stream_inj (hs.symm.trans hs')
  exact hx.keepsTo (hl.onward hr.onward) hj

/-- A client to which the answer to its opening bytes has just come. -/
def greeted : Client :=
  ((initial .default).perform (.start .connect)).act (.feed [.chunk ([0, 1, 1] ++ List.replicate 16 7)])

/-- A frame with a kind, an encoding and a payload that nobody understands. -/
def gibberish : Frame := ⟨⟨5, 0xff, 0xee⟩, [1, 2, 3]⟩

/-- The frame in two pieces, and behind it a header that counts less than itself. -/
def babble : List (List UInt8) := [[0, 0, 0, 5, 0xff], [0xee, 1, 2, 3, 0, 0], [0, 1, 2, 0]]

/-- The client that has read all of this. -/
def babbled : Client :=
  ((greeted.turn (.call 0)).act (.feed (babble.map .chunk))).turn .reader

theorem listens_babbled : (greeted.turn (.call 0)).life = .connected ∧
    babbled.life = .closed ∧ babbled.received = [gibberish] ∧
    babbled.KeepsTo (greeted.turn (.call 0)).config.frameLimit .open [gibberish]
      [0, 0, 0, 1, 2, 0] := by
  have h : Possible .default greeted :=
    ((reachable_performAll _ [.start .connect]).later ((Later.refl _).act _)).possible
  have hc : (greeted.turn (.call 0)).life = .connected := by decide +kernel
  have hr : (greeted.turn (.call 0)).Listens (babble.map .chunk) babbled :=
    .turn (.feed .start _) .reader fun _ hq => hq
  have hs : (greeted.turn (.call 0)).source.feed (babble.map .chunk) =
      Ending.open.stream ([] :: babble) := by decide +kernel
  have hf : gibberish.Legal (greeted.turn (.call 0)).config.frameLimit :=
    ⟨by decide +kernel, by decide +kernel⟩
  have hx : Refused (greeted.turn (.call 0)).config.frameLimit [0, 0, 0, 1, 2, 0]
      (.lengthBelowMinimum 1) := ⟨⟨1, 2, 0⟩, [], by decide +kernel, by decide +kernel⟩
  exact ⟨hc, by decide +kernel, by decide +kernel,
    h.listens (by decide +kernel) (.follows (.turn _ _)) hc hr hs ((Splits.of_refused hx).cons hf)⟩

end Client

end DocWire
