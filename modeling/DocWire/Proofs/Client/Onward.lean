import DocWire.Proofs.Client.Orphans
import DocWire.Proofs.Client.Teardown

/-! # What holds in all runs

The invariants of a client, taken together (`Lawful`): they hold in every possible state
(`Possible.lawful`), and with them at hand, what every move preserves lasts
(`Onward.induct_lawful`). -/

namespace DocWire.Client

variable {c c' c'' : Client} {config : Config}

theorem Onward.mem_journal (h : c.Onward c') {i : Incident} (hi : i ∈ c.journal) :
    i ∈ c'.journal :=
  h.induct (P := fun d => i ∈ d.journal)
    (fun hm hi => by
      obtain ⟨l, hj, -⟩ := hm.adds
      exact hj ▸ List.mem_append_left l hi)
    (fun _ hi => hi) hi

/-- The invariants of calls and replies, of the write path, of closing, of those who close, and of
subscriptions. -/
structure Lawful (c : Client) : Prop where
  correlated : Correlated c
  guarded : Guarded c
  closes : Sealed c
  teardown : Teardown c
  feeding : Feeding c
  kept : Kept c

namespace Lawful

theorem move (hm : c.Move c') (h : Lawful c) : Lawful c' :=
  ⟨h.correlated.move hm, h.guarded.move hm, h.closes.move hm h.guarded,
    h.teardown.move hm h.guarded h.closes, h.feeding.move hm h.correlated,
    h.kept.move hm h.correlated h.guarded h.closes⟩

theorem addCall (job : Job) (h : Lawful c) : Lawful (c.addCall job) :=
  ⟨(Aside.addCall _ job).correlated h.correlated, h.guarded.addCall job, h.closes.addCall job,
    h.teardown.addCall job, h.feeding.addCall h.correlated job, h.kept.addCall h.correlated job⟩

theorem initial (config : Config) : Lawful (Client.initial config) :=
  ⟨.initial config, .initial config, .initial config, .initial config, .initial config,
    .initial config⟩

theorem onward (h : Lawful c) (h' : c.Onward c') : Lawful c' := h'.induct .move .addCall h

end Lawful

theorem Possible.lawful (h : Possible config c) : Lawful c := (Lawful.initial config).onward h

/-- What every move preserves in a client with the invariants lasts over a series of moves. -/
theorem Moves.induct_lawful {P : Client → Prop}
    (hp : ∀ {c c' : Client}, Lawful c → c.Move c' → P c → P c') (h : c.Moves c') (hl : Lawful c)
    (hc : P c) : P c' :=
  (h.induct (P := fun c => Lawful c ∧ P c) (fun hm hx => ⟨.move hm hx.1, hp hx.1 hm hx.2⟩)
    ⟨hl, hc⟩).2

/-- What is preserved by every move and by the start of a call, in a client with the invariants. -/
theorem Onward.induct_lawful {P : Client → Prop}
    (hp : ∀ {c c' : Client}, Lawful c → c.Move c' → P c → P c')
    (hs : ∀ {c : Client} (job : Job), Lawful c → P c → P (c.addCall job)) (h : c.Onward c')
    (hl : Lawful c) (hc : P c) : P c' :=
  (h.induct (P := fun c => Lawful c ∧ P c) (fun hm hx => ⟨.move hm hx.1, hp hx.1 hm hx.2⟩)
    (fun job hx => ⟨hx.1.addCall job, hs job hx.1 hx.2⟩) ⟨hl, hc⟩).2

theorem Lawful.isPast_move (hl : Lawful c) (hm : c.Move c') (hp : c.life.IsPast) :
    c'.life.IsPast :=
  (hl.closes.ages hl.guarded hm).isPast hp

theorem Onward.ne_unconnected (h : c.Onward c') (hl : Lawful c) (hu : c.life ≠ .unconnected) :
    c'.life ≠ .unconnected :=
  h.induct_lawful (P := fun c => c.life ≠ .unconnected)
    (fun hl hm hu => (hl.closes.ages hl.guarded hm).ne_unconnected hu) (fun _ _ hu => hu) hl hu

/-- Closing is not taken back. -/
theorem Onward.isPast (h : c.Onward c') (hl : Lawful c) (hp : c.life.IsPast) : c'.life.IsPast :=
  h.induct_lawful (P := fun c => c.life.IsPast) Lawful.isPast_move (fun _ _ hp => hp) hl hp

end DocWire.Client
