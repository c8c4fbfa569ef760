import DocWire.Codec
import DocWire.Proofs.Json.Trees
import DocWire.Proofs.Message.Records
import DocWire.Proofs.MessagePack.ReadingBack

/-! # What is written is read back

A payload holds a message, a change, a document or free-form data (`Content`). In MessagePack it is
read back whatever comes behind it, as long as its sizes fit 32 bits and it is not nested too deep
(`Content.decode_messagePack`). In JSON it is read back with blanks around it as long as there are
no doubles in it, whose texts are read with two roundings; and since every record is an object,
behind a record there may be nothing but blanks (`Content.decode_json`). -/

namespace DocWire

/-- What a payload may hold. -/
inductive Content where
  | request (m : ClientMessage)
  | message (m : ServerMessage)
  | change (e : ChangeEvent)
  | document (d : Document)
  | data (v : Value)
  deriving Repr, Inhabited

/-- The types of content. -/
inductive ContentType where
  | request
  | message
  | change
  | document
  | data
  deriving DecidableEq, Repr, Inhabited

/-- Reads content of a type. -/
def ContentType.read? : ContentType → Reading → Node → Option Content
  | request, r, n => (ClientMessage.read? r n).map .request
  | message, r, n => (ServerMessage.read? r n).map .message
  | change, r, n => (ChangeEvent.read? r n).map .change
  | document, r, n => (Document.read? r n).map .document
  | data, r, n => (Value.read? r n).map .data

namespace Content

variable {c : Content} {before after : List UInt8} {b : UInt8}

/-- The type of content. -/
def type : Content → ContentType
  | request _ => .request
  | message _ => .message
  | change _ => .change
  | document _ => .document
  | data _ => .data

/-- Content as it is written. -/
def toValue : Content → Value
  | request m => m.toValue
  | message m => m.toValue
  | change e => e.toValue
  | document d => d.toValue
  | data v => v

/-- The free-form data in content. -/
def values : Content → List Value
  | request m => m.data
  | message m => m.data
  | change e => e.data
  | document d => [d.data]
  | data v => [v]

theorem bounded_toValue (h : ∀ v ∈ c.values, v.Proper) : c.toValue.Bounded := by
  have hb : ∀ v ∈ c.values, v.Bounded := fun v hv => (h v hv).bounded
  cases c with
  | request m => exact m.bounded_toValue hb
  | message m => exact m.bounded_toValue hb
  | change e => exact e.bounded_toValue hb
  | document d => exact d.bounded_toValue (hb _ (List.mem_singleton_self _))
  | data v => exact hb _ (List.mem_singleton_self _)

theorem exists_fields (h : c.type ≠ .data) : ∃ fields, c.toValue = .object fields := by
  cases c with
  | request m => cases m <;> exact ⟨_, rfl⟩
  | message m => cases m <;> exact ⟨_, rfl⟩
  | change e => cases e <;> exact ⟨_, rfl⟩
  | document d => exact ⟨_, rfl⟩
  | data v => exact absurd rfl h

/-- **Content is read back off its tree**, where there is room for it. -/
theorem read?_toNode {r : Reading} (hp : ∀ v ∈ c.values, v.Proper)
    (hd : c.toValue.depth ≤ r.room) : c.type.read? r c.toValue.toNode = some c := by
  cases c with
  | request m =>
    have hm := m.read?_toNode hp hd
    simp only [ContentType.read?, type, toValue, hm, Option.map_some]
  | message m =>
    have hm := m.read?_toNode hp hd
    simp only [ContentType.read?, type, toValue, hm, Option.map_some]
  | change e =>
    have he := e.read?_toNode hp hd
    simp only [ContentType.read?, type, toValue, he, Option.map_some]
  | document d =>
    have hx := d.read?_toNode (hp _ (List.mem_singleton_self _)) hd
    simp only [ContentType.read?, type, toValue, hx, Option.map_some]
  | data v =>
    have hv := v.value?_toNode (hp _ (List.mem_singleton_self _)) hd
    simp only [ContentType.read?, type, toValue, Value.read?, hv, Option.map_some]

/-- **In MessagePack content is read back, whatever comes behind it.** -/
theorem decode_messagePack (c : Content) (more : List UInt8) (hp : ∀ v ∈ c.values, v.Proper)
    (hs : c.toValue.Short) (hd : c.toValue.depth < 128) :
    Encoding.messagePack.decode c.type.read?
      (Encoding.messagePack.print c.toValue ++ more) = .ok c := by
  have hparse : Encoding.messagePack.parse? (Encoding.messagePack.print c.toValue ++ more) =
      some c.toValue.toNode :=
    MessagePack.parse?_print (bounded_toValue hp) hs (by unfold MessagePack.maxNesting; omega) more
  have hread := read?_toNode (r := Encoding.messagePack.reading) hp
    (by simp only [Encoding.reading, MessagePack.maxNesting]; omega)
  rw [Encoding.decode, Encoding.decode?, hparse, Option.bind_some, hread]

/-- A push of a change in a nested document, with a byte behind it that starts nothing. -/
def pushed : Content :=
  .message (.change "7" (.update
    (.object [("", .array [.null, .double ⟨0x8000000000000000⟩]), ("n", .int 0xffffffffffffffff)])
    ⟨"1", "users", .object [("n", .int (-33))], "", "\u00fc"⟩))

theorem decode_messagePack_pushed : Encoding.messagePack.decode pushed.type.read?
    (Encoding.messagePack.print pushed.toValue ++ [0xc1]) = .ok pushed :=
  decode_messagePack pushed [0xc1] (by decide +kernel) (by decide +kernel) (by decide +kernel)

/-- **In JSON content without doubles is read back, with blanks around it, and behind a record
nothing but blanks may come.** -/
theorem decode_json (c : Content) (before after : List UInt8) (hp : ∀ v ∈ c.values, v.Proper)
    (hx : c.toValue.Exact) (hd : c.toValue.depth < 100) (hb : before.all Json.isBlank = true)
    (ha : after.all Json.isBlank = true) :
    Encoding.json.decode c.type.read? (before ++ Encoding.json.print c.toValue ++ after) = .ok c ∧
    (c.type ≠ .data → ∀ (b : UInt8) (more : List UInt8), Json.isBlank b = false →
      ∀ t : ContentType, Encoding.json.decode t.read?
        (before ++ Encoding.json.print c.toValue ++ after ++ b :: more) =
          .error (.decodeFailed .malformed)) := by
  have hv : c.toValue.Bounded := bounded_toValue hp
  constructor
  · have hparse : Encoding.json.parse? (before ++ Encoding.json.print c.toValue ++ after) =
        some c.toValue.toNode := by
      rw [← Json.tree_of_exact hx]
      exact Json.parse?_print hv hb ha
    have hread := read?_toNode (r := Encoding.json.reading) hp
      (by simp only [Encoding.reading, Encoding.jsonRoom]; omega)
    rw [Encoding.decode, Encoding.decode?, hparse, Option.bind_some, hread]
  · intro hc b more hn t
    obtain ⟨fields, hf⟩ := exists_fields hc
    have hparse : Encoding.json.parse?
        (before ++ Encoding.json.print c.toValue ++ after ++ b :: more) = none := by
      rw [hf] at hv ⊢
      exact Json.parse?_print_cons hv hb ha hn more
    rw [Encoding.decode, Encoding.decode?, hparse, Option.bind_none]

/-- A request to insert a document with the least and the greatest integer, and texts that need
escapes and characters beyond two bytes. -/
def inserting : Content :=
  .request (.insert "3" "users" (.object [("\"\\\n", .int (-0x8000000000000000)),
    ("list", .array [.int 0xffffffffffffffff, .object [], .text "\u00fc\x01😀"])]))

theorem decode_json_inserting :
    Encoding.json.decode inserting.type.read?
      ([0x20, 0x0a] ++ Encoding.json.print inserting.toValue ++ [0x09]) = .ok inserting ∧
    Encoding.json.decode inserting.type.read?
      ([] ++ Encoding.json.print inserting.toValue ++ [] ++ 0x7d :: []) =
        .error (.decodeFailed .malformed) := by
  have hp : ∀ v ∈ inserting.values, v.Proper := by decide +kernel
  have hx : inserting.toValue.Exact := by decide +kernel
  have hd : inserting.toValue.depth < 100 := by decide +kernel
  exact ⟨(decode_json inserting [0x20, 0x0a] [0x09] hp hx hd rfl rfl).1,
    (decode_json inserting [] [] hp hx hd rfl rfl).2 (by decide) 0x7d [] rfl _⟩

end Content

end DocWire
