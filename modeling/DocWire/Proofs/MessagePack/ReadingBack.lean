import Mathlib.Data.List.Flatten
import DocWire.MessagePack.Parser
import DocWire.MessagePack.Printer
import DocWire.Proofs.Value.Parts

/-! # What is written in MessagePack is read back

Every form in which a value is written starts with a marker that no other form has, so reading a
written value takes exactly its bytes, whatever comes behind them, and gives the tree of the value
(`nested_print`). Integers and sizes go into the smallest form with room for them; the lemmas on
integers and on the starts of texts, arrays and maps go through these forms one by one. Sizes are no
matter for what takes less than four gigabytes (`short_of_length_print`). -/

namespace DocWire.MessagePack

variable {item : Option (Reader Node)} {rest : List UInt8} {n : Nat}

/-! ### Bytes and numbers -/

theorem takeBytes?_append (bs rest : List UInt8) :
    takeBytes? bs.length (bs ++ rest) = some (bs, rest) := by
  simp [takeBytes?]

theorem takeNumber?_bytes {width : Nat} (h : n < BigEndian.capacity width) (rest : List UInt8) :
    takeNumber? width (BigEndian.bytes width n ++ rest) = some (n, rest) := by
  have ht := takeBytes?_append (BigEndian.bytes width n) rest
  rw [BigEndian.length_bytes] at ht
  rw [takeNumber?, ht, Option.map_some]
  dsimp only
  rw [BigEndian.value_bytes h]

/-- A negative number in two's complement is read back if it lies in the range of the width. -/
theorem takeSigned?_bytes {width : Nat} {k : Int} (hl : -(BigEndian.capacity width : Int) ≤ 2 * k)
    (hn : k < 0) (rest : List UInt8) :
    takeSigned? width (BigEndian.bytes width (k + BigEndian.capacity width).toNat ++ rest) =
      some (k, rest) := by
  have hc : (k + BigEndian.capacity width).toNat < BigEndian.capacity width := by omega
  have hx : ¬ 2 * (k + BigEndian.capacity width).toNat < BigEndian.capacity width := by omega
  have hk : ((k + BigEndian.capacity width).toNat : Int) - BigEndian.capacity width = k := by omega
  rw [takeSigned?, takeNumber?_bytes hc]
  simp only [Option.map_some, if_neg hx, hk]

theorem sized_bytes {width : Nat} (h : n < BigEndian.capacity width) (f : Nat → Reader Node)
    (rest : List UInt8) : sized width f (BigEndian.bytes width n ++ rest) = f n rest := by
  rw [sized, takeNumber?_bytes h]

theorem unsignedNode_bytes {width : Nat} (h : n < BigEndian.capacity width) (w : IntWidth)
    (rest : List UInt8) :
    unsignedNode width w (BigEndian.bytes width n ++ rest) = some (.int w n, rest) := by
  rw [unsignedNode, takeNumber?_bytes h]
  rfl

theorem signedNode_bytes {width : Nat} {k : Int} (hl : -(BigEndian.capacity width : Int) ≤ 2 * k)
    (hn : k < 0) (rest : List UInt8) :
    signedNode width (BigEndian.bytes width (k + BigEndian.capacity width).toNat ++ rest) =
      some (.int .signed k, rest) := by
  rw [signedNode, takeSigned?_bytes hl hn]
  rfl

theorem textNode_append (s : String) (rest : List UInt8) :
    textNode (Text.toBytes s).length (Text.toBytes s ++ rest) = some (.text s, rest) := by
  rw [textNode, takeBytes?_append, Option.map_some]
  simp only [Text.ofBytes?_toBytes]

/-! ### Markers -/

theorem toNat_marker {base : Nat} (h : base + n < 256) :
    (UInt8.ofNat (base + n)).toNat = base + n := by
  rw [UInt8.toNat_ofNat']
  exact Nat.mod_eq_of_lt h

/-- The start of a text announces its size. -/
theorem marked_textStart (hn : n < 0x100000000) (rest : List UInt8) :
    marked item (textStart n ++ rest) = textNode n rest := by
  unfold textStart
  split_ifs with h1 h2 h3
  · have hm : (UInt8.ofNat (0xa0 + n)).toNat = 0xa0 + n := toNat_marker (by omega)
    have hs : 0xa0 + n - 0xa0 = n := by omega
    simp only [List.singleton_append, marked, body, hm, hs]
    rw [if_neg (by omega), if_neg (by omega), if_neg (by omega), if_pos (by omega)]
  · exact sized_bytes (show n < BigEndian.capacity 1 from h2) textNode rest
  · exact sized_bytes (show n < BigEndian.capacity 2 from h3) textNode rest
  · exact sized_bytes (show n < BigEndian.capacity 4 from hn) textNode rest

theorem marked_seqStart (hn : n < 0x100000000) (rest : List UInt8) :
    marked item (seqStart n ++ rest) = seqNode item n rest := by
  unfold seqStart
  split_ifs with h1 h2
  · have hm : (UInt8.ofNat (0x90 + n)).toNat = 0x90 + n := toNat_marker (by omega)
    have hs : 0x90 + n - 0x90 = n := by omega
    simp only [List.singleton_append, marked, body, hm, hs]
    rw [if_neg (by omega), if_neg (by omega), if_pos (by omega)]
  · exact sized_bytes (show n < BigEndian.capacity 2 from h2) (seqNode item) rest
  · exact sized_bytes (show n < BigEndian.capacity 4 from hn) (seqNode item) rest

theorem marked_mapStart (hn : n < 0x100000000) (rest : List UInt8) :
    marked item (mapStart n ++ rest) = mapNode item n rest := by
  unfold mapStart
  split_ifs with h1 h2
  · have hm : (UInt8.ofNat (0x80 + n)).toNat = 0x80 + n := toNat_marker (by omega)
    have hs : 0x80 + n - 0x80 = n := by omega
    simp only [List.singleton_append, marked, body, hm, hs]
    rw [if_neg (by omega), if_pos (by omega)]
  · exact sized_bytes (show n < BigEndian.capacity 2 from h2) (mapNode item) rest
  · exact sized_bytes (show n < BigEndian.capacity 4 from hn) (mapNode item) rest

/-! ### Scalars -/

theorem widthOf_natCast (m : Nat) : IntWidth.of m =
    if m < 0x100 then .octet else if m < 0x10000 then .short
    else if m < 0x100000000 then .word else .long := by
  have hn : ¬ (m : Int) < 0 := by omega
  have h1 : (m : Int) < 0x100 ↔ m < 0x100 := by omega
  have h2 : (m : Int) < 0x10000 ↔ m < 0x10000 := by omega
  have h3 : (m : Int) < 0x100000000 ↔ m < 0x100000000 := by omega
  simp only [IntWidth.of, if_neg hn, h1, h2, h3]

theorem marked_printInt_natCast {m : Nat} (hm : m < 0x10000000000000000) (rest : List UInt8) :
    marked item (printInt m ++ rest) = some (.ofInt m, rest) := by
  unfold printInt Node.ofInt
  rw [if_pos (Int.natCast_nonneg m), Int.toNat_natCast, widthOf_natCast]
  dsimp only
  split_ifs
  · have hx : (UInt8.ofNat m).toNat = m := by
      rw [UInt8.toNat_ofNat']
      exact Nat.mod_eq_of_lt (by omega)
    simp only [List.singleton_append, marked, body, hx]
    rw [if_pos ‹m < 0x80›]
  any_goals omega
  · exact unsignedNode_bytes (show m < BigEndian.capacity 1 from ‹m < 0x100›) .octet rest
  · exact unsignedNode_bytes (show m < BigEndian.capacity 2 from ‹m < 0x10000›) .short rest
  · exact unsignedNode_bytes (show m < BigEndian.capacity 4 from ‹m < 0x100000000›) .word rest
  · exact unsignedNode_bytes (show m < BigEndian.capacity 8 from hm) .long rest

theorem marked_printInt_neg {k : Int} (hl : -0x8000000000000000 ≤ k) (hk : k < 0)
    (rest : List UInt8) : marked item (printInt k ++ rest) = some (.ofInt k, rest) := by
  unfold printInt Node.ofInt IntWidth.of
  rw [if_neg (by omega), if_pos hk]
  split_ifs with h1 h2 h3 h4
  · have hx : (UInt8.ofNat (k + 0x100).toNat).toNat = (k + 0x100).toNat := by
      rw [UInt8.toNat_ofNat']
      exact Nat.mod_eq_of_lt (by omega)
    have hv : ((k + 0x100).toNat : Int) - 0x100 = k := by omega
    simp only [List.singleton_append, marked, body, hx, hv]
    rw [if_neg (by omega), if_neg (by omega), if_neg (by omega), if_neg (by omega),
      if_pos (by omega)]
  · have hc : -(BigEndian.capacity 1 : Int) ≤ 2 * k := by
      show -((0x100 : Nat) : Int) ≤ 2 * k
      omega
    exact signedNode_bytes hc hk rest
  · have hc : -(BigEndian.capacity 2 : Int) ≤ 2 * k := by
      show -((0x10000 : Nat) : Int) ≤ 2 * k
      omega
    exact signedNode_bytes hc hk rest
  · have hc : -(BigEndian.capacity 4 : Int) ≤ 2 * k := by
      show -((0x100000000 : Nat) : Int) ≤ 2 * k
      omega
    exact signedNode_bytes hc hk rest
  · have hc : -(BigEndian.capacity 8 : Int) ≤ 2 * k := by
      show -((0x10000000000000000 : Nat) : Int) ≤ 2 * k
      omega
    exact signedNode_bytes hc hk rest

/-- **An integer of 64 bits is read back** in the width that it needs. -/
theorem marked_printInt {k : Int} (hl : -0x8000000000000000 ≤ k) (hu : k < 0x10000000000000000)
    (rest : List UInt8) : marked item (printInt k ++ rest) = some (.ofInt k, rest) := by
  by_cases hk : k < 0
  · exact marked_printInt_neg hl hk rest
  · obtain ⟨m, rfl⟩ := Int.eq_ofNat_of_zero_le (by omega : 0 ≤ k)
    exact marked_printInt_natCast (by omega) rest

theorem marked_double (x : Binary64) (rest : List UInt8) :
    marked item (numbered 0xcb 8 x.bits.toNat ++ rest) = some (.double x, rest) := by
  have hx : Binary64.ofBits x.bits.toNat = x := by
    rw [Binary64.ofBits, UInt64.ofNat_toNat]
  have ht := takeNumber?_bytes (show x.bits.toNat < BigEndian.capacity 8 from x.bits.toNat_lt) rest
  change (takeNumber? 8 (BigEndian.bytes 8 x.bits.toNat ++ rest)).map
    (fun p => (Node.double (Binary64.ofBits p.1), p.2)) = _
  rw [ht, Option.map_some, hx]

theorem marked_printText {s : String} (hs : (Text.toBytes s).length < 0x100000000)
    (rest : List UInt8) : marked item (printText s ++ rest) = some (.text s, rest) := by
  unfold printText
  dsimp only
  rw [List.append_assoc, marked_textStart hs, textNode_append]

/-! ### Values -/

/-- Things that are each read back are read back one after the other. -/
theorem takeMany?_flatMap {α β : Type} {one : Reader β} {write : α → List UInt8} {g : α → β}
    {as : List α} (h : ∀ a ∈ as, ∀ rest, one (write a ++ rest) = some (g a, rest)) (found : List β)
    (rest : List UInt8) :
    takeMany? one found as.length (as.flatMap write ++ rest) =
      some (found.reverse ++ as.map g, rest) := by
  induction as generalizing found with
  | nil => simp [takeMany?]
  | cons a as ih =>
    rw [List.flatMap_cons, List.append_assoc, List.length_cons, takeMany?, h a (by simp)]
    dsimp only
    rw [ih fun b hb => h b (by simp [hb])]
    simp

theorem printItems_eq (items : List Value) : printItems items = items.flatMap print := by
  induction items with
  | nil => rfl
  | cons v vs ih => rw [printItems, ih, List.flatMap_cons]

theorem printFields_eq (fields : List (String × Value)) :
    printFields fields = fields.flatMap fun f => printText f.1 ++ print f.2 := by
  induction fields with
  | nil => rfl
  | cons f fields ih =>
    obtain ⟨key, v⟩ := f
    rw [printFields, ih, List.flatMap_cons]

/-- The reader one level further in, if there may be such a level. -/
def inner : Nat → Option (Reader Node)
  | 0 => none
  | room + 1 => some (nested room)

theorem nested_eq (room : Nat) : nested room = marked (inner room) := by
  cases room <;> rfl

/-- **A value that is written is read back** as the tree that spells it, where there is room for it,
and nothing of what comes behind it is touched. -/
theorem nested_print (v : Value) (hb : v.Bounded) (hs : v.Short) {room : Nat}
    (hd : v.depth ≤ room) (rest : List UInt8) :
    nested room (print v ++ rest) = some (v.toNode, rest) := by
  rw [nested_eq]
  induction v using Value.induct generalizing room rest with
  | null => rfl
  | bool b => cases b <;> rfl
  | int k =>
    obtain ⟨hl, hu⟩ : -0x8000000000000000 ≤ k ∧ k < 0x10000000000000000 := by
      simpa [Value.Bounded, Value.all, Value.isBounded] using hb
    exact marked_printInt hl hu rest
  | double x => exact marked_double x rest
  | text s =>
    have hl : (Text.toBytes s).length < 0x100000000 := by
      simpa [Value.Short, Value.all, Value.isShort] using hs
    exact marked_printText hl rest
  | array items ih =>
    obtain ⟨n, rfl, hn⟩ := Value.depth_array_le.1 hd
    obtain ⟨-, hb⟩ := Value.all_array.1 hb
    obtain ⟨hl, hs⟩ := Value.all_array.1 hs
    have hl : items.length < 0x100000000 := by simpa [Value.isShort] using hl
    have hi : ∀ v ∈ items, ∀ rest, nested n (print v ++ rest) = some (v.toNode, rest) := by
      intro v hv rest
      rw [nested_eq]
      exact ih v hv (hb v hv) (hs v hv) (hn v hv) rest
    rw [print, List.append_assoc, marked_seqStart hl, printItems_eq, Value.toNode_array]
    show (takeMany? (nested n) [] items.length (items.flatMap print ++ rest)).map _ = _
    rw [takeMany?_flatMap hi]
    rfl
  | object fields ih =>
    obtain ⟨n, rfl, hn⟩ := Value.depth_object_le.1 hd
    obtain ⟨-, hb⟩ := Value.all_object.1 hb
    obtain ⟨hl, hs⟩ := Value.all_object.1 hs
    obtain ⟨hl, hk⟩ : fields.length < 0x100000000 ∧
        ∀ f ∈ fields, (Text.toBytes f.1).length < 0x100000000 := by
      simpa [Value.isShort] using hl
    have hi : ∀ f ∈ fields, ∀ rest,
        entry (nested n) (printText f.1 ++ print f.2 ++ rest) =
          some ((.text f.1, f.2.toNode), rest) := by
      intro f hf rest
      have hv := ih f hf (hb f hf) (hs f hf) (hn f hf) rest
      rw [entry, List.append_assoc, nested_eq, marked_printText (hk f hf)]
      dsimp only
      rw [hv]
      rfl
    rw [print, List.append_assoc, marked_mapStart hl, printFields_eq, Value.toNode_object]
    show (takeMany? (entry (nested n)) [] fields.length
      (fields.flatMap (fun f => printText f.1 ++ print f.2) ++ rest)).map _ = _
    rw [takeMany?_flatMap hi]
    rfl

/-- **The tree of a written value**, whatever comes behind it. -/
theorem parse?_print {v : Value} (hb : v.Bounded) (hs : v.Short) (hd : v.depth ≤ maxNesting)
    (more : List UInt8) : parse? (print v ++ more) = some v.toNode := by
  rw [parse?, read?, nested_print v hb hs hd]
  rfl

/-! ### Sizes -/

theorem length_textStart_pos (n : Nat) : 0 < (textStart n).length := by
  unfold textStart
  split_ifs <;> exact Nat.succ_pos _

theorem length_seqStart_pos (n : Nat) : 0 < (seqStart n).length := by
  unfold seqStart
  split_ifs <;> exact Nat.succ_pos _

theorem length_mapStart_pos (n : Nat) : 0 < (mapStart n).length := by
  unfold mapStart
  split_ifs <;> exact Nat.succ_pos _

theorem length_printInt_pos (k : Int) : 0 < (printInt k).length := by
  unfold printInt
  dsimp only
  split_ifs <;> exact Nat.succ_pos _

theorem length_printText (s : String) :
    (printText s).length =
      (textStart (Text.toBytes s).length).length + (Text.toBytes s).length := by
  unfold printText
  exact List.length_append

theorem length_print_pos (v : Value) : 0 < (print v).length := by
  cases v with
  | null => exact Nat.succ_pos _
  | bool b => cases b <;> exact Nat.succ_pos _
  | int k => exact length_printInt_pos k
  | double x => exact Nat.succ_pos _
  | text s =>
    have hs := length_textStart_pos (Text.toBytes s).length
    rw [print, length_printText]
    omega
  | array items =>
    have hs := length_seqStart_pos items.length
    rw [print, List.length_append]
    omega
  | object fields =>
    have hs := length_mapStart_pos fields.length
    rw [print, List.length_append]
    omega

theorem length_printItems (items : List Value) : items.length ≤ (printItems items).length ∧
    ∀ v ∈ items, (print v).length ≤ (printItems items).length := by
  induction items with
  | nil => exact ⟨Nat.le_refl _, nofun⟩
  | cons v vs ih =>
    obtain ⟨hl, hm⟩ := ih
    have hv := length_print_pos v
    rw [printItems, List.length_append, List.length_cons]
    refine ⟨by omega, fun w hw => ?_⟩
    rcases List.mem_cons.1 hw with rfl | hw
    · omega
    · have := hm w hw
      omega

theorem length_printFields (fields : List (String × Value)) :
    fields.length ≤ (printFields fields).length ∧
    ∀ f ∈ fields, (Text.toBytes f.1).length ≤ (printFields fields).length ∧
      (print f.2).length ≤ (printFields fields).length := by
  induction fields with
  | nil => exact ⟨Nat.le_refl _, nofun⟩
  | cons f fields ih =>
    obtain ⟨key, v⟩ := f
    obtain ⟨hl, hm⟩ := ih
    have hv := length_print_pos v
    have hk := length_printText key
    rw [printFields, List.length_append, List.length_append, List.length_cons]
    refine ⟨by omega, fun g hg => ?_⟩
    rcases List.mem_cons.1 hg with rfl | hg
    · dsimp only
      omega
    · have := hm g hg
      omega

/-- **What takes less than four gigabytes has no size beyond 32 bits.** -/
theorem short_of_length_print {v : Value} (h : (print v).length < 0x100000000) : v.Short := by
  induction v using Value.induct with
  | null | bool | int | double => rfl
  | text s =>
    have hs : (print (.text s)).length = _ := length_printText s
    have hl : (Text.toBytes s).length < 0x100000000 := by omega
    simpa [Value.Short, Value.all, Value.isShort] using hl
  | array items ih =>
    rw [print, List.length_append] at h
    obtain ⟨hl, hm⟩ := length_printItems items
    refine Value.all_array.2 ⟨?_, fun v hv => ih v hv ?_⟩
    · have hn : items.length < 0x100000000 := by omega
      simpa [Value.isShort] using hn
    · have := hm v hv
      omega
  | object fields ih =>
    rw [print, List.length_append] at h
    obtain ⟨hl, hm⟩ := length_printFields fields
    refine Value.all_object.2 ⟨?_, fun f hf => ih f hf ?_⟩
    · have hn : fields.length < 0x100000000 := by omega
      have hk : ∀ f ∈ fields, (Text.toBytes f.1).length < 0x100000000 := fun f hf => by
        have := (hm f hf).1
        omega
      simpa [Value.isShort, hn] using hk
    · have := (hm f hf).2
      omega

end DocWire.MessagePack
