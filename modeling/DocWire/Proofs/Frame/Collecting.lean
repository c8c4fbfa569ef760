import Mathlib.Data.List.Basic
import DocWire.Proofs.Frame.Cutting

/-! # Pushing bytes in pieces

A buffer is used by pushing bytes, taking frames and clearing (`Reached`). However the same bytes are
cut into pushes, the same frames come out and the same state is left, and the frames given out, with
what is still held, spell the bytes pushed. A header out of bounds stops the buffer: from the push
that brings its sixth byte on, every push fails, and nothing behind the last frame before it is
consumed until the buffer is cleared (`Reached.collects`). -/

namespace DocWire.Frame.Buffer

variable {b b' : Buffer} {limit : UInt32} {data : List UInt8} {chunks : List (List UInt8)}
  {fault : Option DecodeFault} {x : DecodeFault} {frames : List Frame} {given : List (List Frame)}

/-- Pushes chunks one after the other, and lists the answers. -/
def pushAll (b : Buffer) : List (List UInt8) → List (Except DecodeFault (List Frame)) × Buffer
  | [] => ([], b)
  | data :: chunks => ((b.push data).1 :: ((b.push data).2.pushAll chunks).1,
      ((b.push data).2.pushAll chunks).2)

/-- The buffers that come about by use. -/
inductive Reached (limit : UInt32) : Buffer → Prop
  | empty : Reached limit (empty limit)
  | push {b : Buffer} (data : List UInt8) : Reached limit b → Reached limit (b.push data).2
  | cut {b : Buffer} : Reached limit b → Reached limit b.cut.2
  | clear {b : Buffer} : Reached limit b → Reached limit b.clear

/-- Taking frames off a buffer one by one, until there is none or a fault. -/
inductive Extracts : Buffer → List Frame → Option DecodeFault → Buffer → Prop
  | starved {b b' : Buffer} (hc : b.cut = (.starved, b')) : Extracts b [] none b'
  | refused {b b' : Buffer} {x : DecodeFault} (hc : b.cut = (.refused x, b')) :
      Extracts b [] (some x) b'
  | frame {b b' b'' : Buffer} {f : Frame} {frames : List Frame} {fault : Option DecodeFault}
      (hc : b.cut = (.frame f, b')) (hx : Extracts b' frames fault b'') :
      Extracts b (f :: frames) fault b''

/-- The answer of a push that took frames before a fault or before the end. -/
def answer (frames : List Frame) : Option DecodeFault → Except DecodeFault (List Frame)
  | none => .ok frames
  | some x => .error x

/-! ### One push -/

theorem push_eq (b : Buffer) (data : List UInt8) :
    b.push data = (answer (b.append data).cutAll.1 (b.append data).cutAll.2.1,
      (b.append data).cutAll.2.2) := by
  unfold push
  rcases (b.append data).cutAll with ⟨frames, _ | x, b'⟩ <;> rfl

/-- **A push takes the frames that have become whole**, and loses them if a fault follows. -/
theorem push_spec (hs : b.Sound) (data : List UInt8) : ∃ frames fault b',
    b.push data = (answer frames fault, b') ∧ b'.limit = b.limit ∧ b'.Settled fault ∧
      Splits b.limit (b.held ++ data) frames b'.held := by
  obtain ⟨hj, hl, hx⟩ := cutAll_spec (sound_append hs data)
  rw [held_append] at hj
  exact ⟨_, _, _, push_eq b data, hl, hx, hj⟩

theorem settled_empty (limit : UInt32) : (empty limit).Settled none := by
  have hd : ¬ Decided limit [] := not_decided_of_length_lt (by simp [Header.size])
  refine ⟨sound_empty limit, rfl, fun f more hf hx => hd (.inl ⟨f, more, hf, hx⟩), fun x => ?_⟩
  refine ⟨fun hx => ?_, fun hr => absurd (.inr ⟨x, hr⟩) hd⟩
  cases hx

/-- **Between two uses all whole frames have been taken.** -/
theorem Reached.settled (h : Reached limit b) : b.limit = limit ∧ ∃ fault, b.Settled fault := by
  induction h with
  | empty => exact ⟨rfl, none, settled_empty limit⟩
  | push data _ ih =>
    obtain ⟨hl, fault, hs⟩ := ih
    obtain ⟨frames, fault', b', he, hl', hs', -⟩ := push_spec hs.sound data
    rw [he]
    exact ⟨hl'.trans hl, fault', hs'⟩
  | cut _ ih =>
    obtain ⟨hl, fault, hs⟩ := ih
    rw [hs.cut]
    exact ⟨hl, fault, hs⟩
  | clear _ ih => exact ⟨ih.1, none, settled_empty _⟩

/-- A header out of bounds is never taken. -/
theorem Settled.header_eq_none (hs : b.Settled (some x)) : b.header = none := by
  obtain ⟨h, more, hb, hf⟩ := (hs.refused x).1 rfl
  cases hh : b.header with
  | none => rfl
  | some y =>
    rw [held_of_header hh] at hb
    obtain ⟨rfl, -⟩ := Header.encode_append_inj hb
    rw [hs.sound y hh] at hf
    cases hf

/-- **A refused buffer fails every push in the same way, and keeps what is pushed.** -/
theorem Settled.push_refused (hs : b.Settled (some x)) (data : List UInt8) :
    b.push data = (.error x, b.append data) ∧ (b.append data).Settled (some x) := by
  have hr : Refused b.limit (b.append data).held x := by
    rw [held_append]
    exact ((hs.refused x).1 rfl).append data
  obtain ⟨frames, fault, b', he, hl, hs', hj⟩ := push_spec hs.sound data
  rw [← held_append] at hj
  obtain ⟨rfl, hb⟩ := hj.unique (.of_refused hr)
  obtain rfl : fault = some x := (hs'.refused x).2 (by rw [hl, hb]; exact hr)
  have hd : b' = b.append data := by
    have hh := hs.header_eq_none
    have hb' : b'.bytes = (b.append data).bytes := by
      rw [← held_of_no_header hs'.header_eq_none, hb]
      exact held_of_no_header hh
    obtain ⟨_, _, _⟩ := b'
    cases hl
    cases hb'
    exact congrArg (Buffer.mk _ _) (hs'.header_eq_none.trans hh.symm)
  rw [hd] at he hs'
  exact ⟨he, hs'⟩

/-! ### All pushes -/

theorem pushAll_append (b : Buffer) (xs ys : List (List UInt8)) :
    b.pushAll (xs ++ ys) = ((b.pushAll xs).1 ++ ((b.pushAll xs).2.pushAll ys).1,
      ((b.pushAll xs).2.pushAll ys).2) := by
  induction xs generalizing b with
  | nil => rfl
  | cons data xs ih =>
    rw [List.cons_append, pushAll, ih]
    rfl

theorem Settled.pushAll_refused (hs : b.Settled (some x)) (chunks : List (List UInt8)) :
    b.pushAll chunks = (List.replicate chunks.length (.error x), b.append chunks.flatten) ∧
      (b.append chunks.flatten).Settled (some x) := by
  induction chunks generalizing b with
  | nil =>
    have hb : b.append [] = b := by
      unfold append
      rw [List.append_nil]
    rw [List.flatten_nil, hb]
    exact ⟨rfl, hs⟩
  | cons data chunks ih =>
    obtain ⟨he, hs'⟩ := hs.push_refused data
    obtain ⟨hc, hx⟩ := ih hs'
    have hb : (b.append data).append chunks.flatten = b.append (data :: chunks).flatten := by
      unfold append
      rw [List.flatten_cons, List.append_assoc]
    rw [hb] at hc hx
    rw [pushAll, he, hc]
    exact ⟨rfl, hx⟩

/-- What a series of pushes comes to: all of them succeed, or one brings a fault. -/
inductive Pushed (b : Buffer) (chunks : List (List UInt8)) : Prop
  | whole {given : List (List Frame)} {b' : Buffer}
      (he : b.pushAll chunks = (given.map .ok, b')) (hl : b'.limit = b.limit)
      (hs : b'.Settled none) (hj : Splits b.limit (b.held ++ chunks.flatten) given.flatten b'.held)
  | broken {before after : List (List UInt8)} {data : List UInt8} {given : List (List Frame)}
      {lost : List Frame} {x : DecodeFault} {mid b' : Buffer} (hc : chunks = before ++ data :: after)
      (he : b.pushAll before = (given.map .ok, mid)) (hm : mid.limit = b.limit)
      (hn : mid.Settled none)
      (hj : Splits b.limit (b.held ++ before.flatten) given.flatten mid.held)
      (hd : mid.push data = (.error x, b')) (hl : b'.limit = b.limit) (hs : b'.Settled (some x))
      (hx : Splits b.limit (b.held ++ before.flatten ++ data) (given.flatten ++ lost) b'.held)

theorem Settled.pushed (hs : b.Settled none) (chunks : List (List UInt8)) : b.Pushed chunks := by
  induction chunks using List.reverseRecOn with
  | nil =>
    have he : b.pushAll [] = (([] : List (List Frame)).map .ok, b) := rfl
    exact .whole he rfl hs (by simpa using .nil hs.last)
  | append_singleton chunks data ih =>
    cases ih with
    | @whole given mid he hl hm hj =>
      obtain ⟨frames, fault, b', hp, hl', hs', hx⟩ := push_spec hm.sound data
      rw [hl] at hl' hx
      have hx' := hj.append hx
      cases fault with
      | none =>
        have he' : b.pushAll (chunks ++ [data]) = ((given ++ [frames]).map .ok, b') := by
          rw [pushAll_append, he]
          dsimp only [Buffer.pushAll]
          rw [hp, List.map_append]
          rfl
        refine .whole he' hl' hs' ?_
        rw [List.flatten_append, List.flatten_append, ← List.append_assoc, List.flatten_singleton,
          List.flatten_singleton]
        exact hx'
      | some x => exact .broken rfl he hl hm hj hp hl' hs' hx'
    | @broken before after data' _ _ _ _ _ hc he hm hn hj hd hl hs' hx =>
      have hc' : chunks ++ [data] = before ++ data' :: (after ++ [data]) := by
        rw [hc, List.append_assoc, List.cons_append]
      exact .broken hc' he hm hn hj hd hl hs' hx

/-- The series that ran into a fault, up to its end. -/
theorem pushAll_broken {before : List (List UInt8)} {mid : Buffer}
    (he : b.pushAll before = (given.map .ok, mid)) (hd : mid.push data = (.error x, b'))
    (hs : b'.Settled (some x)) (after : List (List UInt8)) : b.pushAll (before ++ data :: after) =
      (given.map .ok ++ List.replicate (after.length + 1) (.error x), b'.append after.flatten) := by
  rw [pushAll_append, he]
  dsimp only [Buffer.pushAll]
  rw [hd, (hs.pushAll_refused after).1]
  rfl

theorem not_all_ok {frames : List (Except DecodeFault (List Frame))} (hx : .error x ∈ frames) :
    frames ≠ given.map .ok := by
  rintro rfl
  simp at hx

/-- **The state after a series of pushes** is the settled one with the bytes behind the last whole
frame, and the series has succeeded if that begins with no fault. -/
theorem Settled.pushAll_spec (hs : b.Settled fault) (chunks : List (List UInt8)) :
    ∃ frames fault' b', (b.pushAll chunks).2 = b' ∧ b'.limit = b.limit ∧ b'.Settled fault' ∧
      Splits b.limit (b.held ++ chunks.flatten) frames b'.held ∧
      (fault' = none → ∃ given : List (List Frame), (b.pushAll chunks).1 = given.map .ok) ∧
      ∀ given : List (List Frame), (b.pushAll chunks).1 = given.map .ok →
        given.flatten = frames ∧ (chunks ≠ [] → fault' = none) := by
  cases fault with
  | none =>
    cases hs.pushed chunks with
    | @whole given b' he hl hs' hj =>
      refine ⟨_, none, b', by rw [he], hl, hs', hj, fun _ => ⟨given, by rw [he]⟩, ?_⟩
      intro given' hg
      rw [he] at hg
      obtain rfl := List.map_injective_iff.2 (fun _ _ => Except.ok.inj) hg
      exact ⟨rfl, fun _ => rfl⟩
    | @broken before after data given lost x mid b' hc he hm hn hj hd hl hs' hx =>
      have hp := pushAll_broken he hd hs' after
      obtain ⟨-, ha⟩ := hs'.pushAll_refused after
      have hr := ((hs'.refused x).1 rfl).append after.flatten
      rw [hl] at hr
      have hj' := hx.append (.of_refused hr)
      refine ⟨given.flatten ++ lost, some x, b'.append after.flatten, by rw [hc, hp], hl, ha,
        ?_, nofun, fun given' hg => ?_⟩
      · rw [held_append, hc, List.flatten_append, List.flatten_cons]
        simpa using hj'
      · rw [hc, hp] at hg
        exact absurd hg (not_all_ok (x := x) (by simp))
  | some x =>
    obtain ⟨hp, ha⟩ := hs.pushAll_refused chunks
    refine ⟨[], some x, b.append chunks.flatten, by rw [hp], rfl, ha, ?_, nofun, fun given hg => ?_⟩
    · rw [held_append]
      exact .of_refused (((hs.refused x).1 rfl).append _)
    · rw [hp] at hg
      cases chunks with
      | nil =>
        obtain rfl : given = [] := by simpa using hg.symm
        exact ⟨rfl, fun hn => absurd rfl hn⟩
      | cons data chunks => exact absurd hg (not_all_ok (x := x) (by simp))

theorem extracts_cutAll (b : Buffer) : b.Extracts b.cutAll.1 b.cutAll.2.1 b.cutAll.2.2 := by
  induction hw : b.weight using Nat.strongRecOn generalizing b with
  | ind w ih =>
    unfold cutAll
    split
    next f b₁ he => exact .frame he (ih _ (hw ▸ weight_cut he) b₁ rfl)
    next b₁ he => exact .starved he
    next x b₁ he => exact .refused he

theorem size_mul_length_le (frames : List Frame) :
    Header.size * frames.length ≤ (frames.flatMap toBytes).length := by
  induction frames with
  | nil => exact Nat.le_refl _
  | cons f frames ih =>
    rw [List.flatMap_cons, List.length_append, length_toBytes, List.length_cons, Nat.mul_succ]
    omega

/-! ### The whole contract -/

/-- A series of pushes in which one brings the sixth byte of a header out of bounds, behind the frames
`good`. That push and all later ones fail. The frames that were whole before it have been given out,
those that it made whole are lost, and the bytes from the header on stay. -/
inductive Breaks (b : Buffer) (chunks : List (List UInt8)) (good : List Frame) (bad : List UInt8)
    (x : DecodeFault) : Prop
  | met {before after : List (List UInt8)} {data rest : List UInt8} {given : List (List Frame)}
      {lost : List Frame} (hc : chunks = before ++ data :: after)
      (hb : (b.held ++ before.flatten).length < (good.flatMap toBytes).length + Header.size)
      (ha : (good.flatMap toBytes).length + Header.size ≤ (b.held ++ before.flatten ++ data).length)
      (he : b.pushAll chunks = (given.map .ok ++ List.replicate (after.length + 1) (.error x),
        ⟨b.limit, bad, none⟩))
      (hn : Buffer.cut ⟨b.limit, bad, none⟩ = (.refused x, ⟨b.limit, bad, none⟩))
      (hl : given.length = before.length) (hg : good = given.flatten ++ lost)
      (hs : Splits b.limit (b.held ++ before.flatten) given.flatten rest)

/-- What holds of a buffer and of every series of pushes. While all pushes succeed, the frames given
out and the bytes held are the bytes pushed, and the same bytes in other pieces give the same frames
and leave the same state.

The push that brings the sixth byte of a header out of bounds fails, and so does every later one
(`broken`): a buffer that is refused keeps what is pushed and gives no frame (`stuck`), until it is
cleared, which makes it as good as new. Taking frames comes to an end, after no more of them than
there are headers in the bytes. -/
structure Collects (b : Buffer) (chunks : List (List UInt8)) : Prop where
  kept : ∀ given : List (List Frame), (b.pushAll chunks).1 = given.map .ok →
    given.flatten.flatMap toBytes ++ (b.pushAll chunks).2.held = b.held ++ chunks.flatten
  same : ∀ chunks', chunks'.flatten = chunks.flatten →
    (b.pushAll chunks').2 = (b.pushAll chunks).2 ∧
      ∀ given : List (List Frame), chunks ≠ [] → (b.pushAll chunks).1 = given.map .ok →
        ∃ given' : List (List Frame), (b.pushAll chunks').1 = given'.map .ok ∧
          given'.flatten = given.flatten
  broken : ∀ (good : List Frame) (h : Header) more x, (∀ f ∈ good, f.Legal b.limit) →
    h.fault? b.limit = some x →
    b.held ++ chunks.flatten = good.flatMap toBytes ++ (h.encode ++ more) →
    b.held.length < (good.flatMap toBytes).length + Header.size →
    b.Breaks chunks good (h.encode ++ more) x
  stuck : ∀ (h : Header) more x, h.fault? b.limit = some x → b.held = h.encode ++ more →
    b.pushAll chunks =
      (List.replicate chunks.length (.error x), ⟨b.limit, b.held ++ chunks.flatten, none⟩) ∧
    (b.pushAll chunks).2.cut = (.refused x, (b.pushAll chunks).2)
  cleared : (b.pushAll chunks).2.clear = empty b.limit
  ends : ∀ data, ∃ frames fault b', (b.append data).Extracts frames fault b' ∧
    b.push data = (answer frames fault, b') ∧ Header.size * frames.length ≤ (b.held ++ data).length

theorem Settled.not_refused (hs : b.Settled none) : ¬ Refused b.limit b.held x := fun hr => by
  cases (hs.refused x).2 hr

theorem Settled.eq_mk (hs : b.Settled (some x)) : b = ⟨b.limit, b.held, none⟩ := by
  have hh := hs.header_eq_none
  have hb := held_of_no_header hh
  obtain ⟨l, bytes, header⟩ := b
  dsimp only at hh hb ⊢
  rw [hb, hh]

theorem length_pushAll (b : Buffer) (chunks : List (List UInt8)) :
    (b.pushAll chunks).1.length = chunks.length := by
  induction chunks generalizing b with
  | nil => rfl
  | cons data chunks ih => rw [Buffer.pushAll, List.length_cons, ih, List.length_cons]

/-- The push that meets a header out of bounds. -/
theorem Settled.pushAll_bad {good : List Frame} {h : Header} {more : List UInt8}
    (hs : b.Settled none) (hf : h.fault? b.limit = some x)
    (hw : Splits b.limit (b.held ++ chunks.flatten) good (h.encode ++ more)) :
    b.Breaks chunks good (h.encode ++ more) x := by
  have hr : Refused b.limit (h.encode ++ more) x := ⟨h, more, rfl, hf⟩
  cases hs.pushed chunks with
  | @whole given b' he hl hs' hj =>
    rw [← (hj.unique hw).2, ← hl] at hr
    exact absurd hr hs'.not_refused
  | @broken before after data given lost x' mid b' hc he hm hn hj hd hl hs' hx =>
    obtain ⟨-, ha⟩ := hs'.pushAll_refused after
    have hr' := (hs'.refused x').1 rfl
    rw [hl] at hr'
    have hw' := hx.append (.of_refused (hr'.append after.flatten))
    have hb : b.held ++ chunks.flatten = b.held ++ before.flatten ++ data ++ after.flatten := by
      rw [hc]
      simp
    rw [← hb, List.append_nil] at hw'
    obtain ⟨rfl, hh⟩ := hw'.unique hw
    obtain rfl : x' = x := by
      rw [← hh] at hr
      exact (hr'.append after.flatten).unique hr
    have hl' : (b'.append after.flatten).limit = b.limit := hl
    have he' : b'.append after.flatten = ⟨b.limit, h.encode ++ more, none⟩ := by
      rw [ha.eq_mk, held_append, hh, hl']
    have hp := pushAll_broken he hd hs' after
    rw [← hc, he'] at hp
    refine .met hc ?_ ?_ hp (he' ▸ ha.cut) ?_ rfl hj
    · by_contra hx
      -- With its six bytes the header would have been met before this push.
      obtain ⟨part, hp⟩ : (given.flatten ++ lost).flatMap toBytes ++ h.encode <+:
          b.held ++ before.flatten := by
        have hm : (given.flatten ++ lost).flatMap toBytes ++ h.encode <+:
            b.held ++ chunks.flatten := by
          refine ⟨more, ?_⟩
          rw [List.append_assoc]
          exact hw.joined
        have hj' : b.held ++ before.flatten <+: b.held ++ chunks.flatten := by
          rw [hb, List.append_assoc]
          exact List.prefix_append _ _
        refine List.prefix_of_prefix_length_le hm hj' ?_
        rw [List.length_append, Header.length_encode]
        omega
      have hr : Refused b.limit (h.encode ++ part) x' := ⟨h, part, rfl, hf⟩
      have hw' : Splits b.limit (b.held ++ before.flatten) (given.flatten ++ lost)
          (h.encode ++ part) :=
        ⟨by rw [← hp, List.append_assoc], hw.legal, fun _ _ hx => hr.ne_toBytes hx⟩
      rw [← (hj.unique hw').2, ← hm] at hr
      exact hn.not_refused hr
    · have hz := hr'.size_le
      rw [← hx.joined, List.length_append]
      omega
    · have hn := length_pushAll b before
      rw [he, List.length_map] at hn
      exact hn

/-- **Pushing neither loses nor doubles nor moves bytes, and does not depend on the pieces.** -/
theorem Reached.collects (hb : Reached limit b) (chunks : List (List UInt8)) :
    b.Collects chunks := by
  obtain ⟨-, fault, hs⟩ := hb.settled
  obtain ⟨frames, fault', b', he, hl, hs', hj, ho, hg⟩ := hs.pushAll_spec chunks
  refine ⟨fun given hk => ?_, fun chunks' hc => ?_, ?_, ?_, ?_, fun data => ?_⟩
  · rw [he, (hg given hk).1]
    exact hj.joined
  · obtain ⟨frames₁, fault₁, b₁, he₁, hl₁, hs₁, hj₁, ho₁, hg₁⟩ := hs.pushAll_spec chunks'
    rw [hc] at hj₁
    obtain ⟨rfl, hh⟩ := hj₁.unique hj
    obtain ⟨rfl, rfl⟩ := hs₁.eq_of_held hs' (hl₁.trans hl.symm) hh
    refine ⟨he₁.trans he.symm, fun given hn hk => ?_⟩
    obtain ⟨rfl, hx⟩ := hg given hk
    obtain ⟨given', hk'⟩ := ho₁ (hx hn)
    exact ⟨given', hk', (hg₁ given' hk').1⟩
  · intro good h more x hg hf hh hn
    have hr : Refused b.limit (h.encode ++ more) x := ⟨h, more, rfl, hf⟩
    have hw : Splits b.limit (b.held ++ chunks.flatten) good (h.encode ++ more) :=
      ⟨hh.symm, hg, fun _ _ hx => hr.ne_toBytes hx⟩
    cases fault with
    | none => exact hs.pushAll_bad hf hw
    | some y =>
      have hy := (hs.refused y).1 rfl
      have hz := hy.size_le
      obtain ⟨rfl, -⟩ := hw.unique (.of_refused (hy.append chunks.flatten))
      rw [List.flatMap_nil, List.length_nil] at hn
      omega
  · intro h more x hf hh
    have hr : Refused b.limit b.held x := ⟨h, more, hh, hf⟩
    obtain rfl := (hs.refused x).2 hr
    obtain ⟨hp, ha⟩ := hs.pushAll_refused chunks
    have hm := ha.eq_mk
    rw [held_append] at hm
    rw [hp]
    exact ⟨congrArg _ hm, ha.cut⟩
  · rw [he, Buffer.clear, hl]
  · have hx := extracts_cutAll (b.append data)
    refine ⟨_, _, _, hx, push_eq b data, ?_⟩
    obtain ⟨hj, -, -⟩ := cutAll_spec (sound_append hs.sound data)
    rw [held_append] at hj
    have hn := size_mul_length_le (b.append data).cutAll.1
    rw [← hj.joined, List.length_append]
    omega

/-- A frame without payload in two pieces, and behind it a header that announces too little. -/
theorem collects_refused : Reached 16 (empty 16) ∧
    (empty 16).Collects [[0, 0, 0, 2, 1], [1, 0, 0, 0, 1], [9, 9, 7], [5]] ∧
    (empty 16).pushAll [[0, 0, 0, 2, 1], [1, 0, 0, 0, 1], [9, 9, 7], [5]] =
      ([.ok [], .ok [⟨⟨2, 1, 1⟩, []⟩], .error (.lengthBelowMinimum 1),
        .error (.lengthBelowMinimum 1)], ⟨16, [0, 0, 0, 1, 9, 9, 7, 5], none⟩) :=
  ⟨.empty, Reached.empty.collects _, by decide +kernel⟩

end DocWire.Frame.Buffer
