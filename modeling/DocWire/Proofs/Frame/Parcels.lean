import DocWire.Proofs.Frame.Collecting

/-! # Frames are read back

A frame is made of a parcel: a kind, an encoding and a payload. The length that it announces has 32
bits, so a payload can be sent exactly if its size is below that by the two bytes that the length
counts besides (`encode?_eq`). Frames within the limit of a buffer come out of it as the parcels that
went in, however their bytes are cut into pushes (`pushAll_parcels`); a frame above the limit is
refused (`push_aboveLimit`). So a buffer accepts a frame just when it can be made and keeps to the limit
(`accepts_iff`). -/

namespace DocWire.Frame

/-- What a frame is made of. -/
structure Parcel where
  kind : FrameKind
  encoding : Encoding
  payload : List UInt8
  deriving DecidableEq, Repr, Inhabited

/-- What a frame was made of, if its kind and its encoding are known. -/
def parcel? (f : Frame) : Option Parcel := do
  return ⟨← f.header.kind?, ← f.header.encoding?, f.payload⟩

namespace Parcel

variable {limit : UInt32} {p : Parcel} {parcels : List Parcel}

/-- The bytes of the frame that carries a parcel. -/
def encode? (p : Parcel) : Except Failure (List UInt8) :=
  Frame.encode? p.kind p.encoding p.payload

/-- The length that the frame of a parcel announces. -/
def length (p : Parcel) : Nat := p.payload.length + minFrameLength

/-- The frame of a parcel whose length has 32 bits. -/
def frame (p : Parcel) : Frame :=
  ⟨⟨UInt32.ofNat p.length, p.kind.toByte, p.encoding.toByte⟩, p.payload⟩

theorem parcel?_frame (p : Parcel) : p.frame.parcel? = some p := by
  simp [parcel?, frame, Header.kind?, Header.encoding?]

theorem toNat_length (h : p.length < 0x100000000) :
    p.frame.header.length.toNat = p.length := by
  rw [frame, UInt32.toNat_ofNat']
  exact Nat.mod_eq_of_lt h

/-- **A payload can be sent exactly if the length of its frame has 32 bits.** -/
theorem encode?_eq (p : Parcel) : p.encode? =
    if p.length < 0x100000000 then .ok p.frame.toBytes
    else .error (.invalidArgument (.payloadTooLarge p.payload.length)) := by
  unfold encode? Frame.encode? Header.ofPayload? length
  split
  · rfl
  · rfl

theorem length_lt (h : p.length ≤ limit.toNat) : p.length < 0x100000000 :=
  Nat.lt_of_le_of_lt h limit.toNat_lt

theorem legal_frame (h : p.length ≤ limit.toNat) : p.frame.Legal limit := by
  have hl := toNat_length (length_lt h)
  refine ⟨?_, ?_⟩
  · rw [UInt32.le_iff_toNat_le, hl]
    exact h
  · rw [hl]
    rfl

theorem mapM_encode? (h : ∀ p ∈ parcels, p.length ≤ limit.toNat) :
    parcels.mapM encode? = .ok (parcels.map fun p => p.frame.toBytes) := by
  induction parcels with
  | nil => rfl
  | cons p parcels ih =>
    have hp := length_lt (h p List.mem_cons_self)
    rw [List.mapM_cons, encode?_eq, if_pos hp, ih fun q hq => h q (List.mem_cons_of_mem p hq)]
    rfl

/-- The frames of parcels are the only ones in their bytes. -/
theorem splits_frames (h : ∀ p ∈ parcels, p.length ≤ limit.toNat) :
    Splits limit (parcels.map fun p => p.frame.toBytes).flatten (parcels.map frame) [] := by
  induction parcels with
  | nil => exact .nil (Buffer.settled_empty limit).last
  | cons p parcels ih =>
    have hs := ih fun q hq => h q (List.mem_cons_of_mem p hq)
    exact hs.cons (legal_frame (h p List.mem_cons_self))

end Parcel

namespace Buffer

variable {limit : UInt32} {p : Parcel} {parcels : List Parcel} {chunks : List (List UInt8)}

/-- A buffer of a limit accepts some bytes: they are one frame, and nothing is left of them. -/
def Accepts (limit : UInt32) (bytes : List UInt8) : Prop :=
  ∃ f, (empty limit).push bytes = (.ok [f], empty limit)

/-- **Frames within the limit come out of a buffer as they went in**, however their bytes are cut
into pushes, and leave it empty. -/
theorem pushAll_parcels (h : ∀ p ∈ parcels, p.length ≤ limit.toNat)
    (hc : chunks.flatten = (parcels.map fun p => p.frame.toBytes).flatten) :
    ∃ given : List (List Frame), (empty limit).pushAll chunks = (given.map .ok, empty limit) ∧
      given.flatten = parcels.map Parcel.frame := by
  obtain ⟨frames, fault, b, hb, hl, hs, hj, hok, hall⟩ :=
    (settled_empty limit).pushAll_spec chunks
  rw [held_empty, List.nil_append, hc] at hj
  obtain ⟨rfl, hheld⟩ := hj.unique (Parcel.splits_frames h)
  obtain ⟨rfl, rfl⟩ := hs.eq_of_held (settled_empty limit) hl hheld
  obtain ⟨given, hg⟩ := hok rfl
  exact ⟨given, Prod.ext hg hb, (hall given hg).1⟩

/-- **A frame above the limit is refused.** -/
theorem push_aboveLimit (h : limit.toNat < p.length) (h' : p.length < 0x100000000) :
    ∃ fault b, (empty limit).push p.frame.toBytes = (.error fault, b) := by
  have hl := Parcel.toNat_length h'
  have hm : ¬ p.frame.header.length.toNat < minFrameLength := by
    rw [hl]
    unfold Parcel.length
    omega
  have hx : limit < p.frame.header.length := by
    rw [UInt32.lt_iff_toNat_lt, hl]
    exact h
  have hr : Refused limit p.frame.toBytes
      (.lengthAboveLimit p.frame.header.length.toNat limit.toNat) :=
    ⟨p.frame.header, p.payload, rfl, by rw [Header.fault?, if_neg hm, if_pos hx]⟩
  obtain ⟨frames, fault, b, hp, hlim, hs, hj⟩ := push_spec (sound_empty limit) p.frame.toBytes
  rw [held_empty, List.nil_append] at hj
  obtain ⟨-, hheld⟩ := hj.unique (.of_refused hr)
  obtain rfl := (hs.refused _).2 (by rw [hlim, hheld]; exact hr)
  exact ⟨_, b, hp⟩

/-- **A buffer accepts the frame of a parcel exactly if its length keeps to the limit.** -/
theorem accepts_iff (p : Parcel) :
    (∃ bytes, p.encode? = .ok bytes ∧ Accepts limit bytes) ↔ p.length ≤ limit.toNat := by
  constructor
  · rintro ⟨bytes, he, f, hf⟩
    rw [p.encode?_eq] at he
    split at he
    next h' =>
      obtain rfl := Except.ok.inj he
      refine Nat.le_of_not_lt fun h => ?_
      obtain ⟨fault, b, hp⟩ := push_aboveLimit h h'
      rw [hf] at hp
      cases hp
    next => cases he
  · intro h
    have hl : ∀ q ∈ [p], q.length ≤ limit.toNat := by simpa using h
    have hc : [p.frame.toBytes].flatten = ([p].map fun q => q.frame.toBytes).flatten := rfl
    obtain ⟨given, hp, hg⟩ := pushAll_parcels hl hc
    refine ⟨p.frame.toBytes, by rw [p.encode?_eq, if_pos (Parcel.length_lt h)], p.frame, ?_⟩
    obtain ⟨frames, rfl⟩ : ∃ frames, given = [frames] := by
      have hn := congrArg (fun r => r.1.length) hp
      exact List.length_eq_one_iff.1 (by simpa [pushAll] using hn.symm)
    obtain rfl : frames = [p.frame] := by simpa using hg
    simpa [pushAll, Prod.ext_iff] using hp

end Buffer

end DocWire.Frame
