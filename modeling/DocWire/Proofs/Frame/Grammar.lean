import Mathlib.Data.List.Induction
import DocWire.Frame

/-! # The grammar of frames

A frame within a limit is spelled by the four bytes of its length, its kind byte, its encoding byte
and a payload of that length less two (`Legal`). Every byte string splits into the frames that it
begins with and a rest that begins with no frame (`Splits`), and there is only one way to do so
(`Splits.unique`). The rest may begin with a header that is out of bounds (`Refused`); then no bytes
behind it change anything. -/

namespace DocWire

theorem BigEndian.bytes_value (bs : List UInt8) : bytes bs.length (value bs) = bs := by
  induction bs using List.reverseRecOn with
  | nil => rfl
  | append_singleton bs b ih =>
    have hd : (value bs * 256 + b.toNat) / 256 = value bs := by
      have := b.toNat_lt
      omega
    have hb : UInt8.ofNat (value bs * 256 + b.toNat) = b := by
      refine UInt8.toNat_inj.1 ?_
      have := b.toNat_lt
      rw [UInt8.toNat_ofNat']
      omega
    rw [List.length_append, List.length_singleton, bytes, value_concat, hd, ih, hb]

namespace Header

variable {h h' : Header} {a b bs : List UInt8} {limit : UInt32}

theorem fault?_eq_none :
    h.fault? limit = none ↔ minFrameLength ≤ h.length.toNat ∧ h.length ≤ limit := by
  have hl : ¬ limit < h.length ↔ h.length ≤ limit := by
    rw [UInt32.lt_iff_toNat_lt, UInt32.le_iff_toNat_le]
    omega
  unfold fault?
  split_ifs with h1 h2
  · simp only [false_iff]
    omega
  · simp only [false_iff]
    exact fun hx => hl.2 hx.2 h2
  · exact ⟨fun _ => ⟨by omega, hl.1 h2⟩, fun _ => rfl⟩

/-- The six bytes that a header is read from are the bytes that it is written in. -/
theorem encode_append_drop (hd : decode? bs = some h) : h.encode ++ bs.drop size = bs := by
  unfold decode? at hd
  split at hd
  next a b c d kind encoding rest =>
    cases hd
    have hl : BigEndian.value [a, b, c, d] < 4294967296 := by
      simpa [BigEndian.capacity_succ] using BigEndian.value_lt [a, b, c, d]
    have hv : (UInt32.ofNat (BigEndian.value [a, b, c, d])).toNat = BigEndian.value [a, b, c, d] := by
      rw [UInt32.toNat_ofNat']
      exact Nat.mod_eq_of_lt hl
    have hb : BigEndian.bytes 4 (BigEndian.value [a, b, c, d]) = [a, b, c, d] :=
      BigEndian.bytes_value [a, b, c, d]
    simp [encode, hv, hb, size]
  next => cases hd

theorem decode?_eq_none : decode? bs = none ↔ bs.length < size := by
  unfold decode?
  split
  next => simp [size]
  next hn =>
    refine ⟨fun _ => Nat.lt_of_not_le fun hl => ?_, fun _ => rfl⟩
    rcases bs with _ | ⟨a, _ | ⟨b, _ | ⟨c, _ | ⟨d, _ | ⟨k, _ | ⟨e, rest⟩⟩⟩⟩⟩⟩
    · simp [size] at hl
    · simp [size] at hl
    · simp [size] at hl
    · simp [size] at hl
    · simp [size] at hl
    · simp [size] at hl
    · exact hn a b c d k e rest rfl

theorem encode_append_inj (hb : h.encode ++ a = h'.encode ++ b) : h = h' ∧ a = b := by
  have hd := decode?_encode h a
  rw [hb, decode?_encode] at hd
  obtain rfl := Option.some.inj hd
  exact ⟨rfl, List.append_cancel_left hb⟩

end Header

namespace Frame

variable {limit : UInt32} {f g : Frame} {frames frames' : List Frame}
  {a b bytes more rest rest' : List UInt8} {fault fault' : DecodeFault}

/-- A frame that keeps to the limit, and whose length is the size of its payload plus two. -/
structure Legal (limit : UInt32) (f : Frame) : Prop where
  atMost : f.header.length ≤ limit
  whole : f.payload.length + minFrameLength = f.header.length.toNat

/-- Bytes that begin with a header whose length is out of bounds. -/
def Refused (limit : UInt32) (bytes : List UInt8) (fault : DecodeFault) : Prop :=
  ∃ h more, bytes = Header.encode h ++ more ∧ h.fault? limit = some fault

/-- Bytes that begin with a whole frame or with a header out of bounds. -/
def Decided (limit : UInt32) (bytes : List UInt8) : Prop :=
  (∃ f more, Legal limit f ∧ bytes = f.toBytes ++ more) ∨ ∃ fault, Refused limit bytes fault

/-- The frames that bytes begin with, and the rest behind them, which begins with no frame. -/
structure Splits (limit : UInt32) (bytes : List UInt8) (frames : List Frame)
    (rest : List UInt8) : Prop where
  joined : frames.flatMap toBytes ++ rest = bytes
  legal : ∀ f ∈ frames, f.Legal limit
  last : ∀ (f : Frame) more, f.Legal limit → rest ≠ f.toBytes ++ more

theorem length_toBytes (f : Frame) : f.toBytes.length = Header.size + f.payload.length := by
  simp [toBytes]

/-! ### One frame -/

theorem Legal.payloadSize_eq (h : f.Legal limit) : f.header.payloadSize = f.payload.length := by
  have hw := h.whole
  unfold Header.payloadSize
  omega

theorem Legal.fault?_eq_none (h : f.Legal limit) : f.header.fault? limit = none := by
  have hw := h.whole
  exact Header.fault?_eq_none.2 ⟨by omega, h.atMost⟩

/-- A header in bounds and a payload of the size that it announces are a legal frame. -/
theorem legal_of_payloadSize {h : Header} {payload : List UInt8} (hf : h.fault? limit = none)
    (hp : payload.length = h.payloadSize) : Legal limit ⟨h, payload⟩ := by
  obtain ⟨hl, hm⟩ := Header.fault?_eq_none.1 hf
  refine ⟨hm, ?_⟩
  unfold Header.payloadSize at hp
  dsimp only
  omega

/-- **No frame begins another.** -/
theorem Legal.append_inj (hf : f.Legal limit) (hg : g.Legal limit)
    (hb : f.toBytes ++ a = g.toBytes ++ b) : f = g ∧ a = b := by
  obtain ⟨h, p⟩ := f
  obtain ⟨h', p'⟩ := g
  unfold toBytes at hb
  rw [List.append_assoc, List.append_assoc] at hb
  obtain ⟨rfl, hp⟩ := Header.encode_append_inj hb
  have hl : p.length = p'.length := hf.payloadSize_eq.symm.trans hg.payloadSize_eq
  obtain ⟨rfl, rfl⟩ := List.append_inj hp hl
  exact ⟨rfl, rfl⟩

theorem Refused.append (h : Refused limit bytes fault) (more : List UInt8) :
    Refused limit (bytes ++ more) fault := by
  obtain ⟨h, rest, rfl, hf⟩ := h
  exact ⟨h, rest ++ more, List.append_assoc _ _ _, hf⟩

theorem Refused.unique (h : Refused limit bytes fault) (h' : Refused limit bytes fault') :
    fault = fault' := by
  obtain ⟨h, rest, rfl, hf⟩ := h
  obtain ⟨h', rest', hb, hf'⟩ := h'
  obtain ⟨rfl, -⟩ := Header.encode_append_inj hb
  rw [hf] at hf'
  exact Option.some.inj hf'

theorem Refused.ne_toBytes (h : Refused limit bytes fault) (hf : f.Legal limit) :
    bytes ≠ f.toBytes ++ more := by
  rintro rfl
  obtain ⟨h, rest, hb, hx⟩ := h
  unfold toBytes at hb
  rw [List.append_assoc] at hb
  obtain ⟨rfl, -⟩ := Header.encode_append_inj hb
  rw [hf.fault?_eq_none] at hx
  cases hx

/-- Nothing is decided before the sixth byte. -/
theorem Refused.size_le (h : Refused limit bytes fault) : Header.size ≤ bytes.length := by
  obtain ⟨h, rest, rfl, -⟩ := h
  simp

/-! ### The split -/

/-- **There is only one way to split.** -/
theorem Splits.unique (h : Splits limit bytes frames rest) (h' : Splits limit bytes frames' rest') :
    frames = frames' ∧ rest = rest' := by
  induction frames generalizing bytes frames' with
  | nil =>
    cases frames' with
    | nil => exact ⟨rfl, h.joined.trans h'.joined.symm⟩
    | cons g frames' =>
      refine absurd (h.joined.trans h'.joined.symm) ?_
      rw [List.flatMap_cons, List.append_assoc]
      exact h.last g _ (h'.legal g List.mem_cons_self)
  | cons f frames ih =>
    have hf := h.legal f List.mem_cons_self
    have hj := h.joined
    rw [List.flatMap_cons, List.append_assoc] at hj
    cases frames' with
    | nil =>
      have hj' : rest' = bytes := h'.joined
      exact absurd (hj'.trans hj.symm) (h'.last f _ hf)
    | cons g frames' =>
      have hj' := h'.joined
      rw [List.flatMap_cons, List.append_assoc] at hj'
      obtain ⟨rfl, hr⟩ := hf.append_inj (h'.legal g List.mem_cons_self) (hj.trans hj'.symm)
      obtain ⟨hs, hr⟩ := ih ⟨rfl, fun x hx => h.legal x (List.mem_cons_of_mem _ hx), h.last⟩
        ⟨hr.symm, fun x hx => h'.legal x (List.mem_cons_of_mem _ hx), h'.last⟩
      exact ⟨by rw [hs], hr⟩

theorem Splits.nil (h : ∀ (f : Frame) more, f.Legal limit → rest ≠ f.toBytes ++ more) :
    Splits limit rest [] rest := ⟨rfl, nofun, h⟩

theorem Splits.cons (hf : f.Legal limit) (h : Splits limit bytes frames rest) :
    Splits limit (f.toBytes ++ bytes) (f :: frames) rest := by
  refine ⟨?_, fun g hg => ?_, h.last⟩
  · rw [List.flatMap_cons, List.append_assoc, h.joined]
  · rcases List.mem_cons.1 hg with rfl | hg
    · exact hf
    · exact h.legal g hg

theorem Splits.prepend (hf : ∀ f ∈ frames', f.Legal limit) (h : Splits limit bytes frames rest) :
    Splits limit (frames'.flatMap toBytes ++ bytes) (frames' ++ frames) rest := by
  induction frames' with
  | nil => exact h
  | cons f frames' ih =>
    rw [List.flatMap_cons, List.append_assoc]
    exact (ih fun g hg => hf g (List.mem_cons_of_mem _ hg)).cons (hf f List.mem_cons_self)

theorem Splits.tail (h : Splits limit bytes (f :: frames) rest) :
    ∃ more, bytes = f.toBytes ++ more ∧ Splits limit more frames rest := by
  refine ⟨frames.flatMap toBytes ++ rest, ?_, rfl,
    fun g hg => h.legal g (List.mem_cons_of_mem _ hg), h.last⟩
  rw [← h.joined, List.flatMap_cons, List.append_assoc]

/-- **More bytes go on where the rest stopped.** -/
theorem Splits.append (h : Splits limit a frames rest)
    (h' : Splits limit (rest ++ b) frames' rest') :
    Splits limit (a ++ b) (frames ++ frames') rest' := by
  refine ⟨?_, fun f hf => ?_, h'.last⟩
  · rw [List.flatMap_append, List.append_assoc, h'.joined, ← List.append_assoc, h.joined]
  · rcases List.mem_append.1 hf with hf | hf
    · exact h.legal f hf
    · exact h'.legal f hf

/-- A rest that is refused stays the rest, whatever comes behind it. -/
theorem Splits.of_refused (h : Refused limit rest fault) : Splits limit rest [] rest :=
  .nil fun _ _ hf => h.ne_toBytes hf

end Frame

end DocWire
