import DocWire.Proofs.Client.Core

/-! # What a frame is to a client

A frame that names an id is a reply to the request of that id, unless it is a push. Routing depends
on nothing else of a frame than what is read here (`core_route`). -/

namespace DocWire

namespace Frame

/-- The routing fields of a frame, if its payload can be read. -/
def envelope? (f : Frame) : Option Envelope :=
  f.header.encoding?.bind fun encoding => encoding.decode? Envelope.read? f.payload

/-- The reply that a frame is, with the id of the request. -/
def reply? (f : Frame) : Option (String × Reply) :=
  match f.header.encoding?, f.envelope? with
  | some encoding, some envelope =>
    if envelope.isChange then none else envelope.id.map fun id => (id, ⟨encoding, f.payload⟩)
  | _, _ => none

/-- The push that a frame is. -/
def push? (f : Frame) : Option ChangeNotification :=
  match f.header.encoding?, f.envelope? with
  | some encoding, some envelope =>
    if envelope.isChange && envelope.id.isSome then
      encoding.decode? ChangeNotification.read? f.payload
    else none
  | _, _ => none

/-- Whether a reply tells of a failure. -/
def tellsOfError (f : Frame) : Bool := f.envelope?.any Envelope.isError

/-- A reply has the bytes of its frame and the encoding that the frame names. -/
theorem reply?_eq_some {f : Frame} {id : String} {reply : Reply} (h : f.reply? = some (id, reply)) :
    ∃ envelope, f.envelope? = some envelope ∧ envelope.id = some id ∧ envelope.isChange = false ∧
      f.header.encoding? = some reply.encoding ∧ reply.payload = f.payload := by
  unfold reply? at h
  split at h
  next encoding envelope he hv =>
    split at h
    · cases h
    next hc =>
      obtain ⟨id', hi, hp⟩ := Option.map_eq_some_iff.1 h
      cases hp
      exact ⟨envelope, hv, hi, by simpa using hc, he, rfl⟩
  · cases h

theorem push?_eq_none_of_reply? {f : Frame} {p : String × Reply} (h : f.reply? = some p) :
    f.push? = none := by
  obtain ⟨id, reply⟩ := p
  obtain ⟨envelope, hv, -, hc, he, -⟩ := reply?_eq_some h
  unfold push?
  rw [he, hv]
  simp [hc]

end Frame

namespace Client

open DocWire.Correlator (Slot)

/-- What routing a frame comes to, after it has been written down. -/
def routed (c : Client) (f : Frame) : Client :=
  match f.reply?, f.push? with
  | some (id, reply), _ =>
    match c.correlator.slots.lookup id with
    | some slot =>
      { c with correlator := c.correlator.remove id }.handOver id f.tellsOfError reply slot
    | none => c
  | none, some note => c.dispatch note
  | none, none => c

theorem core_resolve (c : Client) (id : String) (isError : Bool) (reply : Reply) :
    (c.resolve id isError reply).core =
      (match c.correlator.slots.lookup id with
        | some slot =>
          { c with correlator := c.correlator.remove id }.handOver id isError reply slot
        | none => c).core := by
  unfold resolve Correlator.take
  cases c.correlator.slots.lookup id with
  | none => rfl
  | some slot => exact core_wakeDecided _

/-- **Routing a frame**: a reply is handed over to the slot of its id if there is one, a push is
given to the callback that its id is routed to, and any other frame changes nothing. -/
theorem core_route (c : Client) (f : Frame) :
    (c.route f).core = ((c.record (.routed f)).routed f).core := by
  unfold route routed Frame.reply? Frame.push? Frame.tellsOfError Frame.envelope?
  cases he : f.header.encoding? with
  | none => rfl
  | some encoding =>
    dsimp only [Option.bind_some]
    unfold routePayload
    cases encoding.decode? Envelope.read? f.payload with
    | none => rfl
    | some envelope =>
      dsimp only
      cases hi : envelope.id with
      | none => simp
      | some id =>
        by_cases hc : envelope.isChange = true
        · simp only [hc, if_true, Option.isSome_some, Bool.and_true]
          cases encoding.decode? ChangeNotification.read? f.payload with
          | none => rfl
          | some note => rfl
        · simp only [hc, Option.map_some]
          exact core_resolve _ _ _ _

end Client

end DocWire
