/-!
# Text and its bytes

Text is a string of Unicode scalar values; on the wire it is UTF-8.
-/

namespace DocWire.Text

/-- The UTF-8 bytes of a text. -/
def toBytes (s : String) : List UInt8 := s.toUTF8.data.toList

/-- The text that a byte string spells in UTF-8. -/
def ofBytes? (bs : List UInt8) : Option String := String.fromUTF8? ⟨bs.toArray⟩

@[simp] theorem ofBytes?_toBytes (s : String) : ofBytes? (toBytes s) = some s := by
  have h : (⟨(toBytes s).toArray⟩ : ByteArray) = s.toUTF8 := by simp [toBytes]
  unfold ofBytes?
  rw [h]
  exact dif_pos s.isValidUTF8

theorem toBytes_ofBytes? {bs : List UInt8} {s : String} (h : ofBytes? bs = some s) :
    toBytes s = bs := by
  unfold ofBytes? String.fromUTF8? at h
  split at h
  · cases h; rfl
  · cases h

end DocWire.Text
