import DocWire.Proofs.Client.Replies
import DocWire.Proofs.Message.Routing
import DocWire.Proofs.Message.RoundTrip

/-! # A payload is read twice

The reader reads of a payload only its envelope, the caller who gets it reads a whole message. The
two do not look at the same entries, nor do they take the same keys: a field may be called by its
number, and a record may be spelled as an array, in which the envelope has the id first and the
message its kind. But a numeral is no kind, so what has a numeral as the id of its envelope is a map,
and in a map both find the id and the kind in the same entries (`Envelope.agrees`). What is written
as a message has the envelope that it should (`ServerMessage.envelope_toNode`,
`ServerMessage.envelope_tree`). -/

namespace DocWire

namespace Reading

variable {r : Reading} {names : List String} {entries : List (Node × Node)} {i : Nat}
  {places fields : List (Option Node)} {key v : Node}

theorem placeEntries?_filled (h : r.placeEntries? names entries places = some fields)
    (hp : places[i]? = some (some v)) : fields[i]? = some (some v) := by
  induction entries generalizing places with
  | nil =>
    cases h
    exact hp
  | cons e rest ih =>
    obtain ⟨k, w⟩ := e
    unfold placeEntries? at h
    split at h
    next => cases h
    next => exact ih h hp
    next j _ =>
      split at h
      next hj =>
        have hne : j ≠ i := fun he => by
          subst he
          rw [hp] at hj
          cases hj
        exact ih h (by rw [List.getElem?_set_ne hne, hp])
      next => cases h

/-- **An entry that spells a name fills the place of that name.** -/
theorem placeEntries?_of_mem (h : r.placeEntries? names entries places = some fields)
    (hm : (key, v) ∈ entries) (hi : r.nameIndex? names key = some (some i)) :
    fields[i]? = some (some v) := by
  induction entries generalizing places with
  | nil => cases hm
  | cons e rest ih =>
    obtain ⟨k, w⟩ := e
    unfold placeEntries? at h
    rcases List.mem_cons.1 hm with hm | hm
    · obtain ⟨rfl, rfl⟩ := Prod.mk.inj hm
      rw [hi] at h
      dsimp only at h
      split at h
      next hj =>
        have hl : i < places.length := (List.getElem?_eq_some_iff.1 hj).choose
        exact placeEntries?_filled h (by rw [List.getElem?_set_self hl])
      next => cases h
    · split at h
      next => cases h
      next => exact ih h hm
      next =>
        split at h
        next => exact ih h hm
        next => cases h

theorem nameIndex?_of_mem (h : r.placeEntries? names entries places = some fields)
    (hm : (key, v) ∈ entries) : r.nameIndex? names key ≠ none := by
  induction entries generalizing places with
  | nil => cases hm
  | cons e rest ih =>
    obtain ⟨k, w⟩ := e
    unfold placeEntries? at h
    split at h
    next => cases h
    next hi =>
      rcases List.mem_cons.1 hm with hm | hm
      · obtain ⟨rfl, rfl⟩ := Prod.mk.inj hm
        simp [hi]
      · exact ih h hm
    next hi =>
      split at h
      next =>
        rcases List.mem_cons.1 hm with hm | hm
        · obtain ⟨rfl, rfl⟩ := Prod.mk.inj hm
          simp [hi]
        · exact ih h hm
      next => cases h

/-- **A place that has been filled was filled by an entry.** -/
theorem mem_of_placeEntries? (h : r.placeEntries? names entries places = some fields)
    (hf : fields[i]? = some (some v)) :
    places[i]? = some (some v) ∨
      ∃ key, (key, v) ∈ entries ∧ r.nameIndex? names key = some (some i) := by
  induction entries generalizing places with
  | nil =>
    cases h
    exact .inl hf
  | cons e rest ih =>
    obtain ⟨k, w⟩ := e
    have later : (∃ key, (key, v) ∈ rest ∧ r.nameIndex? names key = some (some i)) →
        ∃ key, (key, v) ∈ (k, w) :: rest ∧ r.nameIndex? names key = some (some i) :=
      fun ⟨key, hm, hi⟩ => ⟨key, List.mem_cons_of_mem _ hm, hi⟩
    unfold placeEntries? at h
    split at h
    next => cases h
    next => exact (ih h).imp_right later
    next j hk =>
      split at h
      next hj =>
        rcases ih h with hp | hm
        · have hl : j < places.length := (List.getElem?_eq_some_iff.1 hj).choose
          by_cases hji : j = i
          · subst hji
            rw [List.getElem?_set_self hl] at hp
            cases hp
            exact .inr ⟨k, List.mem_cons_self, hk⟩
          · rw [List.getElem?_set_ne hji] at hp
            exact .inl hp
        · exact .inr (later hm)
      next => cases h

/-- The first name is spelled by the same keys when the record has been taken into memory, as far as
they can be names before that. -/
theorem nameIndex?_inMemory {name : String} {names names' : List String}
    (h : r.inMemory.nameIndex? (name :: names) key = some (some 0))
    (hk : r.nameIndex? (name :: names') key ≠ none) :
    r.nameIndex? (name :: names') key = some (some 0) := by
  rw [nameIndex?_first names names'] at h
  cases key with
  | text s => exact h
  | bytes bs => exact h
  | int w n =>
    unfold nameIndex? at h hk ⊢
    dsimp only at h hk ⊢
    split at hk
    next hw =>
      split at h
      next =>
        rw [if_pos hw]
        exact h
      next => cases h
    next => exact absurd rfl hk
  | _ => cases h

theorem optionalText?_of_nameIndex? {s : Option String}
    (hi : r.nameIndex? names v = some (some i)) (hs : v.optionalText? = some s) : s = names[i]? := by
  have hx : ∀ {t : String}, names.idxOf? t = some i → names[i]? = some t := fun ht => by
    obtain ⟨hl, he, -⟩ := List.idxOf?_eq_some_iff.1 ht
    rw [List.getElem?_eq_getElem hl, he]
  cases v with
  | text t =>
    cases hs
    exact (hx (Option.some.inj hi)).symm
  | bytes bs =>
    obtain ⟨t, ht, hi⟩ := Option.bind_eq_some_iff.1 (Option.some.inj hi)
    have ht : (Node.bytes bs).text? = some t := ht
    rw [Node.optionalText?_of_text? ht] at hs
    cases hs
    exact (hx hi).symm
  | int w n => cases hs
  | _ => cases hi

/-- A record with a kind is an array that begins with it, or a map with one entry for it. -/
theorem kindAndRest?_cases {kinds : List String} {n rest : Node}
    (h : r.kindAndRest? kinds n = some (i, rest)) :
    (∃ kind items, n = .seq (kind :: items) ∧ r.nameIndex? kinds kind = some (some i)) ∨
    ∃ entries others key kind, n = .map entries ∧ rest = .map others ∧
      (∀ e ∈ others, e ∈ entries) ∧ (key, kind) ∈ entries ∧ isKindKey key = true ∧
      r.nameIndex? kinds kind = some (some i) := by
  unfold kindAndRest? at h
  obtain ⟨-, h⟩ := Option.ite_none_right_eq_some.1 h
  cases n with
  | seq items =>
    cases items with
    | nil => cases h
    | cons kind items =>
      obtain ⟨j, hj, h⟩ := Option.bind_eq_some_iff.1 h
      cases h
      exact .inl ⟨kind, items, rfl, Option.join_eq_some_iff.1 hj⟩
  | map entries =>
    dsimp only at h
    split at h
    next key kind others hp =>
      obtain ⟨j, hj, h⟩ := Option.bind_eq_some_iff.1 h
      cases h
      rw [List.partition_eq_filter_filter] at hp
      obtain ⟨hk, rfl⟩ := Prod.mk.inj hp
      have hm : (key, kind) ∈ entries.filter fun e => isKindKey e.1 := by simp [hk]
      obtain ⟨hm, hk⟩ := List.mem_filter.1 hm
      exact .inr ⟨entries, _, key, kind, rfl, rfl, fun e he => (List.mem_filter.1 he).1, hm, hk,
        Option.join_eq_some_iff.1 hj⟩
    next => cases h
  | _ => cases h

theorem placeEntries?_others (h : ∀ e ∈ entries, ∃ s, e.1 = .text s ∧ s ∉ names) :
    r.placeEntries? names entries places = some places := by
  induction entries with
  | nil => rfl
  | cons e rest ih =>
    obtain ⟨k, w⟩ := e
    obtain ⟨s, rfl, hs⟩ := h (k, w) List.mem_cons_self
    have hi : names.idxOf? s = none := List.idxOf?_eq_none_iff.2 hs
    rw [placeEntries?, nameIndex?, hi]
    exact ih fun e he => h e (List.mem_cons_of_mem _ he)

theorem nameIndex?_of_isKindKey (h : isKindKey key = true) :
    r.nameIndex? ["id", "type"] key = some (some 1) := by
  cases key with
  | text s =>
    obtain rfl : s = "type" := by simpa [isKindKey] using h
    rfl
  | bytes bs =>
    have hb : Text.ofBytes? bs = some "type" := by simpa [isKindKey] using h
    change some ((Text.ofBytes? bs).bind _) = _
    rw [hb]
    rfl
  | _ => cases h

end Reading

/-! ### The two fields by which a message is routed -/

/-- What an envelope is read off. -/
theorem Envelope.read?_spec {r : Reading} {n : Node} {envelope : Envelope}
    (h : read? r n = some envelope) : ∃ id kind, r.fields? ["id", "type"] n = some [id, kind] ∧
      optionalField? id = some envelope.id ∧ optionalField? kind = some envelope.kind := by
  obtain ⟨fields, hf, h⟩ := Option.bind_eq_some_iff.1 h
  split at h
  next id kind =>
    obtain ⟨s, hs, h⟩ := Option.bind_eq_some_iff.1 h
    obtain ⟨t, ht, h⟩ := Option.bind_eq_some_iff.1 h
    cases h
    exact ⟨id, kind, hf, hs, ht⟩
  next => cases h

/-- A text of decimal digits. -/
def IsNumeral (s : String) : Prop := s.toList ≠ [] ∧ s.toList.all Char.isDigit = true

instance : DecidablePred IsNumeral := fun s =>
  inferInstanceAs (Decidable (s.toList ≠ [] ∧ s.toList.all Char.isDigit = true))

theorem isNumeral_toString (n : Nat) : IsNumeral (toString n) := by
  have hl : (toString n).toList = Nat.toDigits 10 n := Nat.toList_repr
  unfold IsNumeral
  rw [hl, List.all_eq_true]
  exact ⟨Nat.toDigits_ne_nil, fun ch hc => Nat.isDigit_of_mem_toDigits (by decide) (by decide) hc⟩

theorem IsNumeral.not_mem_kinds {s : String} (h : IsNumeral s) : s ∉ ServerMessage.kinds := by
  intro hm
  have hx : ∀ k ∈ ServerMessage.kinds, ¬ IsNumeral k := by decide
  exact hx s hm h

namespace ServerMessage

variable {r : Reading} {m : ServerMessage} {i : Nat} {fields : List (Option Node)} {n kind : Node}
  {entries rest : List (Node × Node)} {id : String}

/-- Whether a message is a push. -/
def isChange : ServerMessage → Bool
  | change _ _ => true
  | _ => false

/-- Whether a message tells of a failure. -/
def isError : ServerMessage → Bool
  | error _ _ => true
  | _ => false

theorem isChange_iff : m.isChange = true ↔ m.kind = "change" := by
  cases m <;> simp [isChange, kind]

theorem isError_iff : m.isError = true ↔ m.kind = "error" := by
  cases m <;> simp [isError, kind]

theorem fieldNames_eq (i : Nat) : ∃ names, fieldNames i = "id" :: names := by
  unfold fieldNames
  split <;> exact ⟨_, rfl⟩

/-- The number of its kind and its first field tell the kind and the id of a message. -/
theorem ofFields?_spec (h : ofFields? r i fields = some m) :
    kinds[i]? = some m.kind ∧ ∃ n, fields[0]? = some (some n) ∧ n.text? = some m.id := by
  have hid : ∀ {α : Type} {place : Option Node} {f : String → Option α} {a : α},
      ((requiredText? place).bind f) = some a →
        ∃ n s, place = some n ∧ n.text? = some s ∧ f s = some a := fun hp => by
    obtain ⟨s, hs, ha⟩ := Option.bind_eq_some_iff.1 hp
    obtain ⟨n, hn, hs⟩ := Option.bind_eq_some_iff.1 hs
    exact ⟨n, s, hn, hs, ha⟩
  unfold ofFields? at h
  split at h
  · obtain ⟨n, s, rfl, hn, h⟩ := hid h
    cases h
    exact ⟨rfl, n, rfl, hn⟩
  · obtain ⟨n, s, rfl, hn, h⟩ := hid h
    obtain ⟨data, -, h⟩ := Option.bind_eq_some_iff.1 h
    cases h
    exact ⟨rfl, n, rfl, hn⟩
  · obtain ⟨n, s, rfl, hn, h⟩ := hid h
    obtain ⟨text, -, h⟩ := Option.bind_eq_some_iff.1 h
    cases h
    exact ⟨rfl, n, rfl, hn⟩
  · obtain ⟨n, s, rfl, hn, h⟩ := hid h
    cases h
    exact ⟨rfl, n, rfl, hn⟩
  · obtain ⟨n, s, rfl, hn, h⟩ := hid h
    cases h
    exact ⟨rfl, n, rfl, hn⟩
  · obtain ⟨n, s, rfl, hn, h⟩ := hid h
    obtain ⟨event, -, h⟩ := Option.bind_eq_some_iff.1 h
    cases h
    exact ⟨rfl, n, rfl, hn⟩
  · cases h

theorem read?_spec (h : read? r n = some m) : ∃ i rest names fields,
    kinds[i]? = some m.kind ∧ r.kindAndRest? kinds n = some (i, rest) ∧
    r.inMemory.fields? ("id" :: names) rest = some fields ∧
    ∃ v, fields[0]? = some (some v) ∧ v.text? = some m.id := by
  obtain ⟨⟨i, rest⟩, hk, h⟩ := Option.bind_eq_some_iff.1 h
  obtain ⟨fields, hf, h⟩ := Option.bind_eq_some_iff.1 h
  obtain ⟨hi, hv⟩ := ofFields?_spec h
  obtain ⟨names, hn⟩ := fieldNames_eq i
  rw [hn] at hf
  exact ⟨i, rest, names, fields, hi, hk, hf, hv⟩

end ServerMessage

/-- **The two readings agree.** What has a numeral as the id of its envelope, and is a message, has
the id and the kind of the message in its envelope. -/
theorem Envelope.eq_of_message {r : Reading} {n : Node} {envelope : Envelope} {m : ServerMessage}
    {id : String} (h : read? r n = some envelope) (hid : envelope.id = some id)
    (hx : IsNumeral id) (hm : ServerMessage.read? r n = some m) :
    m.id = id ∧ envelope.kind = some m.kind := by
  obtain ⟨p, q, hf, hp, hq⟩ := read?_spec h
  rw [hid] at hp
  obtain ⟨i, rest, names, fields, hi, hk, hr, v, hv, hs⟩ := ServerMessage.read?_spec hm
  rcases Reading.kindAndRest?_cases hk with
    ⟨kind, items, rfl, hj⟩ | ⟨entries, others, key, kind, rfl, rfl, ho, hmem, hkey, hj⟩
  · -- In an array the id of the envelope would be the kind of the message.
    obtain ⟨-, hf⟩ := Option.ite_none_right_eq_some.1 hf
    rw [List.map_cons, List.cons_append] at hf
    obtain ⟨rfl, -⟩ := List.cons.inj (Option.some.inj hf)
    have he := Reading.optionalText?_of_nameIndex? hj hp
    exact absurd (List.mem_of_getElem? he.symm) hx.not_mem_kinds
  · have hkind : q = some kind := by
      have := Reading.placeEntries?_of_mem hf hmem (Reading.nameIndex?_of_isKindKey hkey)
      simpa using this
    subst hkind
    have ht := Reading.optionalText?_of_nameIndex? hj hq
    refine ⟨?_, by rw [ht, hi]⟩
    obtain hnone | ⟨k, hkm, hk0⟩ := Reading.mem_of_placeEntries? hr hv
    · simp at hnone
    · have hk1 := Reading.nameIndex?_inMemory hk0 (Reading.nameIndex?_of_mem hf (ho _ hkm))
      have hpv : p = some v := by
        have := Reading.placeEntries?_of_mem hf (ho _ hkm) hk1
        simpa using this
      subst hpv
      have hopt : v.optionalText? = some (some id) := hp
      rw [Node.optionalText?_of_text? hs] at hopt
      exact Option.some.inj (Option.some.inj hopt)

/-! ### The envelope of a written message -/

/-- The kind and the id of a message come first, and no other field has their names. -/
theorem ServerMessage.toValue_eq (m : ServerMessage) : ∃ more,
    m.toValue = .object (("type", .text m.kind) :: ("id", .text m.id) :: more) ∧
      ∀ f ∈ more, f.1 ∉ ["id", "type"] := by
  cases m with
  | pong id => exact ⟨[], rfl, nofun⟩
  | result id data => exact ⟨[("data", data)], rfl, by simp⟩
  | error id text => exact ⟨[("error", .text text)], rfl, by simp⟩
  | subscribed id => exact ⟨[], rfl, nofun⟩
  | unsubscribed id => exact ⟨[], rfl, nofun⟩
  | change id event => exact ⟨[("change", event.toValue)], rfl, by simp⟩

/-- **A message has its id and its kind in its envelope**, however the values in it are spelled. -/
theorem Envelope.read?_toValue {r : Reading} {spell : Value → Node} (m : ServerMessage)
    (ht : ∀ s, spell (.text s) = .text s)
    (ho : ∀ fields, spell (.object fields) = .map (fields.map fun f => (.text f.1, spell f.2))) :
    read? r (spell m.toValue) = some ⟨some m.id, some m.kind⟩ := by
  obtain ⟨more, hm, hn⟩ := m.toValue_eq
  have hmore : r.placeEntries? ["id", "type"] (more.map fun f => (.text f.1, spell f.2))
      [some (.text m.id), some (.text m.kind)] =
        some [some (.text m.id), some (.text m.kind)] := by
    refine Reading.placeEntries?_others fun e he => ?_
    obtain ⟨f, hf, rfl⟩ := List.mem_map.1 he
    exact ⟨f.1, rfl, hn f hf⟩
  have hf : r.fields? ["id", "type"] (spell m.toValue) =
      some [some (.text m.id), some (.text m.kind)] := by
    rw [hm, ho, List.map_cons, List.map_cons, ht, ht]
    exact hmore
  unfold read?
  rw [hf]
  rfl

/-- The payload of a message within the bounds of its encoding has the envelope of the message. -/
theorem Encoding.decode?_envelope (e : Encoding) (m : ServerMessage)
    (hp : ∀ v ∈ m.data, v.Proper)
    (hl : e = messagePack → m.toValue.Short ∧ m.toValue.depth ≤ MessagePack.maxNesting) :
    e.decode? Envelope.read? (e.print m.toValue) = some ⟨some m.id, some m.kind⟩ := by
  have hb : m.toValue.Bounded := m.bounded_toValue fun v hv => (hp v hv).bounded
  cases e with
  | messagePack =>
    obtain ⟨hs, hd⟩ := hl rfl
    have hparse : messagePack.parse? (messagePack.print m.toValue) = some m.toValue.toNode := by
      have h := MessagePack.parse?_print hb hs hd []
      rwa [List.append_nil] at h
    rw [decode?, hparse, Option.bind_some]
    exact Envelope.read?_toValue m (fun _ => rfl) Value.toNode_object
  | json =>
    have hparse : json.parse? (json.print m.toValue) = some (Json.tree m.toValue) := by
      have h : Json.parse? ([] ++ Json.print m.toValue ++ []) = some (Json.tree m.toValue) :=
        Json.parse?_print hb rfl rfl
      rwa [List.nil_append, List.append_nil] at h
    rw [decode?, hparse, Option.bind_some]
    exact Envelope.read?_toValue m (fun _ => rfl) Json.tree_object

/-! ### Payloads -/

/-- What the envelope of a payload tells of the message in it. -/
theorem Encoding.eq_of_message {e : Encoding} {b : List UInt8} {envelope : Envelope} {id : String}
    {m : ServerMessage} (h : e.decode? Envelope.read? b = some envelope)
    (hid : envelope.id = some id) (hx : IsNumeral id)
    (hm : e.decode? ServerMessage.read? b = some m) :
    m.id = id ∧ envelope.kind = some m.kind ∧ envelope.isChange = m.isChange ∧
      envelope.isError = m.isError := by
  obtain ⟨n, hn, h⟩ := Option.bind_eq_some_iff.1 h
  obtain ⟨n', hn', hm⟩ := Option.bind_eq_some_iff.1 hm
  rw [hn] at hn'
  cases hn'
  obtain ⟨hi, hk⟩ := Envelope.eq_of_message h hid hx hm
  refine ⟨hi, hk, ?_, ?_⟩
  · rw [Bool.eq_iff_iff, m.isChange_iff, Envelope.isChange, hk]
    simp
  · rw [Bool.eq_iff_iff, m.isError_iff, Envelope.isError, hk]
    simp

theorem Client.Possible.isNumeral {config : Config} {c : Client} {n : Nat} {id : String}
    (h : Possible config c) (hr : .registered n id ∈ c.journal) : IsNumeral id := by
  obtain ⟨k, -, rfl⟩ := h.correlated.numbered n id hr
  exact isNumeral_toString k

/-- **The envelope of a payload and the message in it agree.** If the id of the envelope is a numeral,
it is the id of the message, and the kind of the envelope is its kind. So a payload that is handed to
a request is never read as a push, and it is read as an error just when the reader has seen that it
is one. A push has the id of its envelope. And a message within the bounds of its encoding is written
with its id and its kind in the envelope. -/
theorem views_agree :
    (∀ (e : Encoding) (b : List UInt8) (envelope : Envelope) (id : String) (m : ServerMessage),
      e.decode? Envelope.read? b = some envelope → envelope.id = some id → IsNumeral id →
      e.decode? ServerMessage.read? b = some m →
        m.id = id ∧ envelope.kind = some m.kind ∧ envelope.isChange = m.isChange ∧
          envelope.isError = m.isError) ∧
    (∀ (config : Config) (c : Client) (before since : List Incident) (f : Frame) (n : Nat)
      (id : String) (reply : Reply) (m : ServerMessage), Client.Possible config c →
      c.journal = before ++ .routed f :: since → Registered before n id →
      f.reply? = some (id, reply) →
      reply.encoding.decode? ServerMessage.read? reply.payload = some m →
        m.id = id ∧ m.isChange = false ∧ m.isError = f.tellsOfError) ∧
    (∀ (e : Encoding) (b : List UInt8) (envelope : Envelope) (note : ChangeNotification),
      e.decode? Envelope.read? b = some envelope → envelope.isChange = true →
      e.decode? ChangeNotification.read? b = some note → envelope.id = some note.id) ∧
    ∀ (e : Encoding) (m : ServerMessage), (∀ v ∈ m.data, v.Proper) →
      (e = .messagePack → m.toValue.Short ∧ m.toValue.depth ≤ MessagePack.maxNesting) →
      e.decode? Envelope.read? (e.print m.toValue) = some ⟨some m.id, some m.kind⟩ := by
  refine ⟨fun e b envelope id m h hid hx hm => Encoding.eq_of_message h hid hx hm,
    fun config c before since f n id reply m hc hj hr hf hm => ?_,
    fun e b envelope note h _ hn => ?_, fun e m hp hl => e.decode?_envelope m hp hl⟩
  · obtain ⟨envelope, hv, hid, hch, he, hp⟩ := Frame.reply?_eq_some hf
    have hx : IsNumeral id := hc.isNumeral (hj ▸ List.mem_append_left _ hr.mem)
    have hd : reply.encoding.decode? Envelope.read? reply.payload = some envelope := by
      unfold Frame.envelope? at hv
      rw [he, Option.bind_some] at hv
      rw [hp]
      exact hv
    obtain ⟨hi, -, hc, he⟩ := Encoding.eq_of_message hd hid hx hm
    have ht : f.tellsOfError = envelope.isError := by
      unfold Frame.tellsOfError
      rw [hv]
      rfl
    exact ⟨hi, hc.symm.trans hch, he.symm.trans ht.symm⟩
  · obtain ⟨tree, ht, h⟩ := Option.bind_eq_some_iff.1 h
    obtain ⟨tree', ht', hn⟩ := Option.bind_eq_some_iff.1 hn
    rw [ht] at ht'
    cases ht'
    exact ChangeNotification.id_eq h hn

/-- An error whose id comes first and under the number of its name, and whose kind comes last. -/
def numbered : List UInt8 :=
  [0x83, 0x00, 0xa1, 0x31, 0xa5, 0x65, 0x72, 0x72, 0x6f, 0x72, 0xa2, 0x6e, 0x6f, 0xa4, 0x74, 0x79,
    0x70, 0x65, 0xa5, 0x65, 0x72, 0x72, 0x6f, 0x72]

/-- A client whose ping has been answered with that error. -/
def rebuffed : Client := Client.pinging.perform (.feed [.chunk ([0, 0, 0, 26, 2, 1] ++ numbered)])

theorem possible_rebuffed : Client.Possible .default rebuffed :=
  (Client.reachable_performAll _ _).possible.onward (Client.later_perform _ _).onward

theorem mem_answered_of_any {j : List Incident} {n : Nat} {reply : Reply} (h : (j.any fun
    | .answered n' reply' => n' == n && reply' == reply
    | _ => false) = true) : .answered n reply ∈ j := by
  obtain ⟨i, hi, hb⟩ := List.any_eq_true.1 h
  split at hb
  next n' reply' =>
    obtain ⟨hn, hr⟩ := Bool.and_eq_true_iff.1 hb
    rwa [← beq_iff_eq.1 hn, ← beq_iff_eq.1 hr]
  next => cases hb

theorem resolved_rebuffed : Resolved rebuffed.journal 1 "1" ⟨.messagePack, numbered⟩ := by
  have hc : Client.Correlated rebuffed := possible_rebuffed.correlated
  have hg : .registered 1 "1" ∈ rebuffed.journal :=
    Client.mem_registered_of_any (by decide +kernel)
  have ha : .answered 1 ⟨.messagePack, numbered⟩ ∈ rebuffed.journal :=
    mem_answered_of_any (by decide +kernel)
  exact ((hc.obtained hg ha).1 _).2 rfl

theorem views_agree_numbered :
    (∃ m, Encoding.messagePack.decode? ServerMessage.read? numbered = some m ∧ m.id = "1" ∧
      m.isError = true) ∧
    (∃ m, Encoding.messagePack.decode? ServerMessage.read? numbered = some m ∧ m.id = "1" ∧
      m.isChange = false) ∧
    (∃ note, Encoding.json.decode? ChangeNotification.read?
      (Encoding.json.print (ServerMessage.change "1" (.delete .null)).toValue) = some note ∧
        note.id = "1") ∧
    Encoding.json.decode? Envelope.read?
      (Encoding.json.print (ServerMessage.result "7" (.double ⟨0x3ff8000000000000⟩)).toValue) =
        some ⟨some "7", some "result"⟩ := by
  obtain ⟨hread, hreply, hpush, hwritten⟩ := views_agree
  have hs : (Encoding.messagePack.decode? ServerMessage.read? numbered).isSome = true := by
    decide +kernel
  obtain ⟨m, hm⟩ := Option.isSome_iff_exists.1 hs
  refine ⟨⟨m, hm, ?_⟩, ⟨m, hm, ?_⟩, ?_, hwritten .json _ (by decide +kernel) nofun⟩
  · have he : Encoding.messagePack.decode? Envelope.read? numbered =
        some ⟨some "1", some "error"⟩ := by decide +kernel
    obtain ⟨hi, -, -, hx⟩ := hread _ _ _ "1" m he rfl (by decide) hm
    exact ⟨hi, hx.symm⟩
  · obtain ⟨before, f, since, hj, hr, hf⟩ := resolved_rebuffed
    obtain ⟨hi, hx, -⟩ := hreply _ _ before since f 1 "1" _ m possible_rebuffed hj hr hf hm
    exact ⟨hi, hx⟩
  · have he : Encoding.json.decode? Envelope.read?
        (Encoding.json.print (ServerMessage.change "1" (.delete .null)).toValue) =
          some ⟨some "1", some "change"⟩ := by decide +kernel
    have hn : (Encoding.json.decode? ChangeNotification.read?
        (Encoding.json.print (ServerMessage.change "1" (.delete .null)).toValue)).isSome = true := by
      decide +kernel
    obtain ⟨note, hn⟩ := Option.isSome_iff_exists.1 hn
    exact ⟨note, hn, (Option.some.inj (hpush _ _ _ note he rfl hn)).symm⟩

end DocWire
