import DocWire.Handshake.Exchange

/-! # The request of the handshake on its way out

Nothing but the request goes out while hands are shaken: what the peer has taken and what is left to
be taken make up the same bytes all the time, and once the answer has been read nothing is left. -/

namespace DocWire.Handshake

open DocWire.Stream (Source Sink Written)

/-- The bytes of the request that the peer has not taken. -/
def Exchange.left : Exchange → List UInt8
  | .writing rest => rest
  | .flushing | .reading _ => []

variable {e e' : Exchange} {s s' : Source} {w w' : Sink} {session : Session}

theorem left_of_readAnswer (got : List UInt8) (s : Source)
    (h : (readAnswer got s).1 = .stopped e) : e.left = [] := by
  fun_induction readAnswer got s with
  | case1 got s hg bs s' hr ih => exact ih h
  | case4 got s hg s' hr => cases h; rfl
  | case2 => cases h
  | case3 => cases h
  | case5 => cases h

theorem left_of_flushRequest (h : flushRequest s w = (.stopped e, s', w')) :
    e.left = [] ∧ w' = w := by
  unfold flushRequest at h
  split at h
  · obtain ⟨hp, hx⟩ := Prod.mk.inj h
    exact ⟨left_of_readAnswer [] s hp, (Prod.mk.inj hx).2.symm⟩
  · cases h
    exact ⟨rfl, rfl⟩
  · cases h

theorem sink_flushRequest (s : Source) (w : Sink) : (flushRequest s w).2.2 = w := by
  unfold flushRequest
  split <;> rfl

/-- **While the exchange stops and goes on, the peer takes the bytes that are left.** -/
theorem Exchange.taken_of_stopped (h : e.run s w = (.stopped e', s', w')) :
    w'.taken ++ e'.left = w.taken ++ e.left := by
  unfold run at h
  split at h
  next rest =>
    obtain ⟨out, ht, hr⟩ := w.exists_taken_write rest
    have hl : (Exchange.writing rest).left = out ++ (w.write rest).1.rest := hr.symm
    rw [hl]
    split at h
    next w₁ hw =>
      rw [hw] at ht ⊢
      obtain ⟨hl, rfl⟩ := left_of_flushRequest h
      rw [ht, hl]
      simp [Written.rest]
    next rest' w₁ hw =>
      rw [hw] at ht ⊢
      cases h
      rw [ht, List.append_assoc]
      rfl
    · cases h
    · cases h
  · obtain ⟨hl, rfl⟩ := left_of_flushRequest h
    rw [hl]
    rfl
  next got =>
    obtain ⟨hp, hx⟩ := Prod.mk.inj h
    rw [left_of_readAnswer got s hp, ← (Prod.mk.inj hx).2]
    rfl

/-- **The session begins once the peer has taken the whole request.** -/
theorem Exchange.taken_of_done (h : e.run s w = (.done (.ok session), s', w')) :
    w'.taken = w.taken ++ e.left := by
  unfold run at h
  split at h
  next rest =>
    obtain ⟨out, ht, hr⟩ := w.exists_taken_write rest
    have hl : (Exchange.writing rest).left = out ++ (w.write rest).1.rest := hr.symm
    rw [hl]
    split at h
    next w₁ hw =>
      rw [hw] at ht ⊢
      have hx : w₁ = w' := by rw [← sink_flushRequest s w₁, h]
      rw [← hx, ht]
      simp [Written.rest]
    · cases h
    · cases h
    · cases h
  · have hx : w = w' := by rw [← sink_flushRequest s w, h]
    rw [hx]
    exact (List.append_nil _).symm
  next got =>
    rw [← (Prod.mk.inj (Prod.mk.inj h).2).2]
    exact (List.append_nil _).symm

end DocWire.Handshake
