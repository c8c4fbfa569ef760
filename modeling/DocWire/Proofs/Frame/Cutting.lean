import DocWire.Frame.Buffer
import DocWire.Proofs.Frame.Grammar

/-! # Buffers keep to the grammar

The bytes of a frame that has begun lie in two places: the header that has been taken, and the bytes
behind it. Together they are what a buffer holds (`held`). Taking frames off a buffer splits what it
holds, as the grammar says (`cutAll_spec`), so after any series of pushes a buffer holds the rest of
all that has been pushed, and its state is determined by that. -/

namespace DocWire.Frame.Buffer

variable {b b' c : Buffer} {limit : UInt32} {h : Header} {data part : List UInt8}
  {fault : Option DecodeFault} {frames : List Frame}

/-- All bytes that a buffer holds, with those of a header that has been taken. -/
def held (b : Buffer) : List UInt8 := (b.header.map Header.encode).getD [] ++ b.bytes

/-- The header that has been taken, if there is one, is in bounds. -/
def Sound (b : Buffer) : Prop := ∀ h, b.header = some h → h.fault? b.limit = none

/-- How a buffer can come out of being cut, by what it holds. -/
inductive Cuts (b : Buffer) : Cut × Buffer → Prop
  | frame {f : Frame} {b' : Buffer} (hf : f.Legal b.limit) (hb : b.held = f.toBytes ++ b'.held)
      (hl : b'.limit = b.limit) (hn : b'.header = none) : Cuts b (.frame f, b')
  | starved {b' : Buffer} (hd : ¬ Decided b.limit b.held) (hb : b'.held = b.held)
      (hl : b'.limit = b.limit) (hs : b'.Sound) (hc : b'.cut = (.starved, b')) :
      Cuts b (.starved, b')
  | refused {x : DecodeFault} (hr : Refused b.limit b.held x) : Cuts b (.refused x, b)

/-- The answer of a buffer that has no frame to give. -/
def idle : Option DecodeFault → Cut
  | none => .starved
  | some fault => .refused fault

/-- A buffer off which all frames have been taken: cutting it again changes nothing, and it is
refused if what it holds begins with a header out of bounds. -/
structure Settled (b : Buffer) (fault : Option DecodeFault) : Prop where
  sound : b.Sound
  cut : b.cut = (idle fault, b)
  last : ∀ (f : Frame) more, f.Legal b.limit → b.held ≠ f.toBytes ++ more
  refused : ∀ x, fault = some x ↔ Refused b.limit b.held x

theorem held_empty (limit : UInt32) : (empty limit).held = [] := rfl

theorem sound_empty (limit : UInt32) : (empty limit).Sound := nofun

theorem held_append (b : Buffer) (data : List UInt8) : (b.append data).held = b.held ++ data := by
  unfold held append
  rw [List.append_assoc]

theorem length_held (b : Buffer) :
    b.held.length = (if b.header.isSome then Header.size else 0) + b.size := by
  unfold held size
  cases b.header with
  | none => simp
  | some h => simp

theorem sound_append (hs : b.Sound) (data : List UInt8) : (b.append data).Sound := hs

theorem held_of_header (hh : b.header = some h) : b.held = h.encode ++ b.bytes := by
  unfold held
  rw [hh]
  rfl

theorem held_of_no_header (hh : b.header = none) : b.held = b.bytes := by
  unfold held
  rw [hh]
  rfl

theorem sound_of_no_header (hh : b.header = none) : b.Sound := fun h hx => by
  rw [hh] at hx
  cases hx

/-! ### One frame -/

theorem not_decided_of_length_lt (hl : data.length < Header.size) : ¬ Decided limit data := by
  rintro (⟨f, more, -, rfl⟩ | ⟨x, hr⟩)
  · rw [List.length_append, length_toBytes] at hl
    omega
  · have := hr.size_le
    omega

/-- A header in bounds decides nothing until its payload is complete. -/
theorem not_decided_of_short (hf : h.fault? limit = none) (hl : part.length < h.payloadSize) :
    ¬ Decided limit (h.encode ++ part) := by
  rintro (⟨f, more, hx, hb⟩ | ⟨x, h', more, hb, hx⟩)
  · unfold toBytes at hb
    rw [List.append_assoc] at hb
    obtain ⟨rfl, rfl⟩ := Header.encode_append_inj hb
    rw [hx.payloadSize_eq, List.length_append] at hl
    omega
  · obtain ⟨rfl, -⟩ := Header.encode_append_inj hb
    rw [hf] at hx
    cases hx

/-- Cutting goes on from a header in bounds that has been taken, whether just now or before. -/
theorem cuts_cutPayload (hf : h.fault? b.limit = none) (hb : c.held = h.encode ++ b.bytes)
    (hl : c.limit = b.limit) : c.Cuts (b.cutPayload h) := by
  unfold cutPayload
  split
  next hs =>
    have hd : { b with header := some h }.cut = (.starved, { b with header := some h }) := by
      unfold cut cutPayload
      simp only [hs, if_true]
    refine .starved ?_ hb.symm hl.symm (fun h' hx => ?_) hd
    · rw [hb, hl]
      exact not_decided_of_short hf hs
    · cases hx
      exact hf
  next hs =>
    have hp : (b.bytes.take h.payloadSize).length = h.payloadSize := by
      rw [List.length_take]
      omega
    refine .frame (hl ▸ legal_of_payloadSize hf hp) ?_ hl.symm rfl
    rw [hb, toBytes, held_of_no_header rfl, List.append_assoc, List.take_append_drop]

/-- **Cutting takes a frame if what is held begins with one, and refuses a header out of bounds.** -/
theorem Sound.cuts (hs : b.Sound) : b.Cuts b.cut := by
  unfold cut
  split
  next h hh => exact cuts_cutPayload (hs h hh) (held_of_header hh) rfl
  next hh =>
    have hb := held_of_no_header hh
    split
    next hd =>
      have hl := Header.decode?_eq_none.1 hd
      refine .starved (hb ▸ not_decided_of_length_lt hl) rfl rfl hs ?_
      unfold cut
      rw [hh]
      dsimp only
      rw [hd]
    next h hd =>
      have hx := Header.encode_append_drop hd
      split
      next x hf => exact .refused ⟨h, b.bytes.drop Header.size, hb.trans hx.symm, hf⟩
      next hf => exact cuts_cutPayload hf (hb.trans hx.symm) rfl

/-! ### All frames -/

/-- **Taking all frames splits what a buffer holds.** -/
theorem cutAll_spec (hs : b.Sound) :
    Splits b.limit b.held b.cutAll.1 b.cutAll.2.2.held ∧ b.cutAll.2.2.limit = b.limit ∧
      b.cutAll.2.2.Settled b.cutAll.2.1 := by
  induction hw : b.weight using Nat.strongRecOn generalizing b with
  | ind w ih =>
    have hc := hs.cuts
    unfold cutAll
    split
    next f b₁ he =>
      rw [he] at hc
      cases hc with
      | frame hf hb hl hn =>
        obtain ⟨hj, hl', hx⟩ := ih _ (hw ▸ weight_cut he) (sound_of_no_header hn) rfl
        refine ⟨?_, hl'.trans hl, hx⟩
        rw [hb]
        exact .cons hf (hl ▸ hj)
    next b₁ he =>
      rw [he] at hc
      cases hc with
      | starved hd hb hl hs' hc =>
        have hn : ∀ (f : Frame) more, f.Legal b.limit → b.held ≠ f.toBytes ++ more :=
          fun f more hf hx => hd (.inl ⟨f, more, hf, hx⟩)
        refine ⟨?_, hl, hs', hc, ?_, fun x => ⟨fun hx => ?_, fun hr => ?_⟩⟩
        · rw [hb]
          exact .nil hn
        · rw [hb, hl]
          exact hn
        · cases hx
        · rw [hb, hl] at hr
          exact absurd (.inr ⟨x, hr⟩) hd
    next x b₁ he =>
      rw [he] at hc
      cases hc with
      | refused hr =>
        refine ⟨.of_refused hr, rfl, hs, he, fun f more hf => hr.ne_toBytes hf, fun y => ?_⟩
        exact ⟨fun hy => Option.some.inj hy ▸ hr, fun hy => congrArg some (hr.unique hy)⟩

/-- Every byte string splits. -/
theorem exists_splits (limit : UInt32) (bytes : List UInt8) :
    ∃ frames rest, Splits limit bytes frames rest := by
  have hx := (cutAll_spec (sound_append (sound_empty limit) bytes)).1
  rw [held_append, held_empty, List.nil_append] at hx
  exact ⟨_, _, hx⟩

theorem Settled.header_eq (hs : b.Settled fault) (hf : h.fault? b.limit = none)
    (hb : b.held = h.encode ++ part) : b.header = some h := by
  cases hh : b.header with
  | some x =>
    rw [held_of_header hh] at hb
    rw [(Header.encode_append_inj hb).1]
  | none =>
    have hc := hs.cut
    rw [held_of_no_header hh] at hb
    unfold Buffer.cut at hc
    simp only [hh, hb, Header.decode?_encode, hf] at hc
    -- Taking the header leaves fewer bytes, and a settled buffer would have kept them.
    have hl : b.bytes.length = part.length + Header.size := by
      rw [hb, List.length_append, Header.length_encode]
      omega
    have hi := congrArg (fun p => p.2.bytes.length) hc
    unfold cutPayload at hi
    dsimp only at hi
    rw [List.drop_left' h.length_encode] at hi
    split at hi
    · dsimp only at hi
      rw [hl, Header.size] at hi
      omega
    · dsimp only at hi
      rw [hl, Header.size, List.length_drop] at hi
      omega

/-- **The bytes that a settled buffer holds determine its state.** -/
theorem Settled.eq_of_held {fault' : Option DecodeFault} (hs : b.Settled fault)
    (hs' : b'.Settled fault') (hl : b.limit = b'.limit) (hb : b.held = b'.held) :
    b = b' ∧ fault = fault' := by
  have hh : b.header = b'.header := by
    cases hx : b.header with
    | some x =>
      have hb' := hb.symm.trans (held_of_header hx)
      exact (hs'.header_eq (hl ▸ hs.sound x hx) hb').symm
    | none =>
      cases hx' : b'.header with
      | none => rfl
      | some x =>
        have hb' := hb.trans (held_of_header hx')
        rw [hs.header_eq (hl ▸ hs'.sound x hx') hb'] at hx
        cases hx
  have hy : b.bytes = b'.bytes := by
    unfold held at hb
    rw [hh] at hb
    exact List.append_cancel_left hb
  refine ⟨?_, ?_⟩
  · obtain ⟨_, _, _⟩ := b
    obtain ⟨_, _, _⟩ := b'
    subst hl hh hy
    rfl
  · ext x
    rw [hs.refused x, hs'.refused x, hl, hb]

end DocWire.Frame.Buffer
