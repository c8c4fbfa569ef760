import Mathlib.Data.List.Induction
import DocWire.Proofs.Client.Frames

/-! # A push is read twice

The reader reads the payload of a push first for its envelope and then as a notification. Both records
have the id as their first field, and the first field of a record is found in the same place whatever
the names of the others are (`Reading.fields?_first`). So a push goes to the subscription that its
envelope names. -/

namespace DocWire

namespace Reading

variable {r : Reading} {name : String} {names names' : List String}

theorem nameIndex?_first (names names' : List String) (n : Node) : r.nameIndex? (name :: names) n = some (some 0) ↔
    r.nameIndex? (name :: names') n = some (some 0) := by
  have h : ∀ {s : String} {names : List String},
      (name :: names).idxOf? s = some 0 ↔ name = s := fun {s names} => by
    rw [List.idxOf?_cons]
    by_cases hs : name = s
    · simp [hs]
    · simp [hs]
  cases n with
  | text s => simp [nameIndex?, h]
  | bytes bs => simp [nameIndex?, Option.bind_eq_some_iff, h]
  | int w k =>
    unfold nameIndex?
    by_cases hw : r.numbers.allows w = true
    · by_cases hk : k.toNat = 0
      · simp [hw, hk]
      · simp [hw, hk]
    · simp [hw]
  | _ => simp [nameIndex?]

/-- One entry fills the first place if it spells the first name, and leaves it alone otherwise. -/
theorem placeEntries?_cons {names : List String} {key v : Node} {rest : List (Node × Node)}
    {ps qs : List (Option Node)} (h : r.placeEntries? names ((key, v) :: rest) ps = some qs) :
    ∃ ps', r.placeEntries? names rest ps' = some qs ∧
      ps'[0]? = if r.nameIndex? names key = some (some 0) then some (some v) else ps[0]? := by
  unfold placeEntries? at h
  cases hi : r.nameIndex? names key with
  | none => simp [hi] at h
  | some k =>
    rw [hi] at h
    cases k with
    | none => exact ⟨ps, h, by simp⟩
    | some i =>
      dsimp only at h
      split at h
      next hp =>
        refine ⟨_, h, ?_⟩
        have hl : i < ps.length := (List.getElem?_eq_some_iff.1 hp).choose
        rcases i with _ | i
        · simp [hl]
        · simp
      next => cases h

theorem placeEntries?_first {entries : List (Node × Node)} {ps ps' qs qs' : List (Option Node)}
    (h : r.placeEntries? (name :: names) entries ps = some qs)
    (h' : r.placeEntries? (name :: names') entries ps' = some qs') (hp : ps[0]? = ps'[0]?) :
    qs[0]? = qs'[0]? := by
  induction entries generalizing ps ps' with
  | nil =>
    cases h
    cases h'
    exact hp
  | cons e rest ih =>
    obtain ⟨key, v⟩ := e
    obtain ⟨ps, h, hx⟩ := placeEntries?_cons h
    obtain ⟨ps', h', hy⟩ := placeEntries?_cons h'
    refine ih h h' ?_
    simp only [hx, hy, nameIndex?_first names names', hp]

/-- **Two records whose first fields have the same name agree on it.** -/
theorem fields?_first {n : Node} {p q : Option Node} {ps qs : List (Option Node)}
    (h : r.fields? (name :: names) n = some (p :: ps))
    (h' : r.fields? (name :: names') n = some (q :: qs)) : p = q := by
  cases n with
  | seq items =>
    obtain ⟨-, h⟩ := Option.ite_none_right_eq_some.1 h
    obtain ⟨-, h'⟩ := Option.ite_none_right_eq_some.1 h'
    cases items with
    | nil => simp_all [List.replicate_succ]
    | cons n items => simp_all
  | map entries =>
    have hf := placeEntries?_first h h' (by simp)
    simpa using hf
  | bytes bs =>
    cases bs with
    | nil =>
      unfold fields? at h h'
      by_cases hm : r.isInMemory = true <;> simp_all [List.replicate_succ]
    | cons b bs => cases h
  | _ => cases h

end Reading

theorem Node.optionalText?_of_text? {n : Node} {s : String} (h : n.text? = some s) :
    n.optionalText? = some (some s) := by
  unfold optionalText?
  split
  · cases h
  · rw [h]
    rfl

/-- **The envelope of a push names the subscription that the push is for.** -/
theorem ChangeNotification.id_eq {r : Reading} {n : Node} {envelope : Envelope}
    {note : ChangeNotification} (h : Envelope.read? r n = some envelope)
    (h' : read? r n = some note) : envelope.id = some note.id := by
  simp only [Envelope.read?, ChangeNotification.read?, Option.bind_eq_bind,
    Option.bind_eq_some_iff] at h h'
  obtain ⟨ps, hp, h⟩ := h
  obtain ⟨qs, hq, h'⟩ := h'
  split at h
  next p kind =>
    split at h'
    next q event =>
      obtain rfl := Reading.fields?_first hp hq
      simp only [Option.bind_eq_some_iff, Option.pure_def, Option.some.injEq] at h h'
      obtain ⟨id, hi, kind, -, rfl⟩ := h
      obtain ⟨s, hs, event, -, rfl⟩ := h'
      obtain ⟨n, rfl, hs⟩ := Option.bind_eq_some_iff.1 hs
      have hx : n.optionalText? = some id := hi
      rw [Node.optionalText?_of_text? hs] at hx
      exact (Option.some.inj hx).symm
    next => cases h'
  next => cases h

namespace Frame

/-- The event that a frame brings a subscription: its envelope is that of a push and names the
subscription, and its change can be read. -/
def event? (f : Frame) (id : String) : Option ChangeEvent :=
  match f.header.encoding?, f.envelope? with
  | some encoding, some envelope =>
    if envelope.isChange && envelope.id == some id then
      (encoding.decode? ChangeNotification.read? f.payload).map (·.event)
    else none
  | _, _ => none

theorem event?_eq_some {f : Frame} {id : String} {event : ChangeEvent} :
    f.event? id = some event ↔ f.push? = some ⟨id, event⟩ := by
  unfold event? push?
  cases he : f.header.encoding? with
  | none => simp
  | some encoding =>
    cases hv : f.envelope? with
    | none => simp
    | some envelope =>
      have hid : ∀ note, encoding.decode? ChangeNotification.read? f.payload = some note →
          envelope.id = some note.id := fun note hn => by
        unfold envelope? at hv
        rw [he, Option.bind_some] at hv
        obtain ⟨n, hp, hv⟩ := Option.bind_eq_some_iff.1 hv
        obtain ⟨n', hp', hn⟩ := Option.bind_eq_some_iff.1 hn
        rw [hp] at hp'
        cases hp'
        exact ChangeNotification.id_eq hv hn
      dsimp only
      cases hd : encoding.decode? ChangeNotification.read? f.payload with
      | none => simp
      | some note =>
        have hi := hid note hd
        obtain ⟨id', event'⟩ := note
        by_cases hc : envelope.isChange = true
        · by_cases hx : id' = id
          · simp [hc, hi, hx]
          · simp [hc, hi, hx]
        · simp [hc]

end Frame

end DocWire
