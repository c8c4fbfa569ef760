import DocWire.Json.Parser
import DocWire.Proofs.Json.Doubles
import DocWire.Proofs.Json.Texts
import DocWire.Proofs.Value.Parts

/-! # The tokens of a written value

`Scans bytes ts rest` says that `bytes` give the tokens `ts`, one after the other, and then go on
with `rest`. A written value gives its own tokens (`scans_print`), if what comes behind it cannot go
on with a numeral; blanks give none. Cutting a whole text into tokens is scanning up to its end
(`tokens?_of_scans`), and whatever stands behind tokens that have been scanned gives further tokens
or none at all (`tokens?_extends`). -/

namespace DocWire.Json

variable {bytes mid rest : List UInt8} {ts us : List Token} {v : Value}

/-- Bytes that give some tokens, one after the other, and then go on with others. -/
inductive Scans : List UInt8 → List Token → List UInt8 → Prop
  | done (rest : List UInt8) : Scans rest [] rest
  | blank {b : UInt8} {bytes rest : List UInt8} {ts : List Token} (hb : isBlank b = true)
      (h : Scans bytes ts rest) : Scans (b :: bytes) ts rest
  | token {b : UInt8} {bytes rest : List UInt8} {t : Token} {ts : List Token}
      (part : List UInt8) (hb : isBlank b = false) (ht : token? b (part ++ bytes) = some (t, bytes))
      (h : Scans bytes ts rest) : Scans (b :: (part ++ bytes)) (t :: ts) rest

theorem Scans.trans (h : Scans bytes ts mid) (h' : Scans mid us rest) :
    Scans bytes (ts ++ us) rest := by
  induction h with
  | done => exact h'
  | blank hb _ ih => exact .blank hb (ih h')
  | token part hb ht _ ih => exact .token part hb ht (ih h')

theorem scans_blanks {blanks : List UInt8} (h : blanks.all isBlank = true) (rest : List UInt8) :
    Scans (blanks ++ rest) [] rest := by
  induction blanks with
  | nil => exact .done rest
  | cons b blanks ih =>
    obtain ⟨hb, h⟩ := Bool.and_eq_true_iff.1 (List.all_cons.symm.trans h)
    exact .blank hb (ih h)

/-- **Scanning takes as many steps as there are bytes, at most.** -/
theorem Scans.tokensFor (h : Scans bytes ts rest) (found : List Token) {fuel : Nat}
    (hf : bytes.length ≤ fuel) : ∃ fuel', rest.length ≤ fuel' ∧
      tokensFor found fuel bytes = Json.tokensFor (ts.reverse ++ found) fuel' rest := by
  induction h generalizing found fuel with
  | done rest => exact ⟨fuel, hf, rfl⟩
  | blank hb h ih =>
    obtain ⟨fuel, rfl⟩ : ∃ n, fuel = n + 1 := ⟨fuel - 1, by simp at hf; omega⟩
    obtain ⟨fuel', hr, he⟩ := ih found (Nat.le_of_succ_le_succ hf)
    exact ⟨fuel', hr, by rw [Json.tokensFor, if_pos hb, he]⟩
  | @token b bytes rest t ts part hb ht h ih =>
    obtain ⟨fuel, rfl⟩ : ∃ n, fuel = n + 1 := ⟨fuel - 1, by simp at hf; omega⟩
    have hl : bytes.length ≤ fuel := by simp at hf; omega
    obtain ⟨fuel', hr, he⟩ := ih (t :: found) hl
    refine ⟨fuel', hr, ?_⟩
    rw [Json.tokensFor, if_neg (by simp [hb]), ht]
    dsimp only
    rw [he]
    simp

/-- **A text is cut into the tokens that it gives up to its end.** -/
theorem tokens?_of_scans (h : Scans bytes ts []) : tokens? bytes = some ts := by
  obtain ⟨fuel, -, he⟩ := h.tokensFor [] (Nat.le_refl _)
  rw [tokens?, he]
  cases fuel <;> simp [Json.tokensFor]

theorem tokensFor_extends {found : List Token} {fuel : Nat}
    (h : tokensFor found fuel bytes = some ts) : ∃ us, ts = found.reverse ++ us := by
  induction fuel generalizing found bytes with
  | zero =>
    cases bytes with
    | nil => exact ⟨[], by simpa [tokensFor] using h.symm⟩
    | cons b bytes => cases h
  | succ fuel ih =>
    cases bytes with
    | nil => exact ⟨[], by simpa [tokensFor] using h.symm⟩
    | cons b bytes =>
      rw [tokensFor] at h
      split_ifs at h
      · exact ih h
      · split at h
        next t rest ht =>
          obtain ⟨us, rfl⟩ := ih h
          exact ⟨t :: us, by simp⟩
        next => cases h

/-- **Anything but blanks behind tokens gives more of them, or none at all.** -/
theorem tokens?_extends {b : UInt8} {more : List UInt8} (h : Scans bytes ts (b :: more))
    (hb : isBlank b = false) (ht : tokens? bytes = some us) : ∃ u us', us = ts ++ u :: us' := by
  obtain ⟨fuel, hr, he⟩ := h.tokensFor [] (Nat.le_refl _)
  obtain ⟨fuel, rfl⟩ : ∃ n, fuel = n + 1 := ⟨fuel - 1, by simp at hr; omega⟩
  rw [tokens?, he, tokensFor, if_neg (by simp [hb])] at ht
  split at ht
  next t rest _ =>
    obtain ⟨us', rfl⟩ := tokensFor_extends ht
    exact ⟨t, us', by simp⟩
  next => cases ht

/-! ### The tokens of a value -/

/-- The tree that the text of a double spells. -/
def doubleNode (x : Binary64) : Node := (doubleNumeral x).toNode

mutual

/-- The tokens of a written value. -/
def tokensOf : Value → List Token
  | .null => [.scalar .null]
  | .bool b => [.scalar (.bool b)]
  | .int n => [.scalar (.ofInt n)]
  | .double x => [.scalar (doubleNode x)]
  | .text s => [.text (.text s)]
  | .array [] => [.openArray, .closeArray]
  | .array (v :: vs) => .openArray :: (tokensOf v ++ (itemTokens vs ++ [.closeArray]))
  | .object [] => [.openObject, .closeObject]
  | .object ((key, v) :: fields) =>
    .openObject :: .text (.text key) :: .colon ::
      (tokensOf v ++ (fieldTokens fields ++ [.closeObject]))

/-- The tokens of further items. -/
def itemTokens : List Value → List Token
  | [] => []
  | v :: vs => .comma :: (tokensOf v ++ itemTokens vs)

/-- The tokens of further fields. -/
def fieldTokens : List (String × Value) → List Token
  | [] => []
  | (key, v) :: fields =>
    .comma :: .text (.text key) :: .colon :: (tokensOf v ++ fieldTokens fields)

end

theorem scans_mark {b : UInt8} {t : Token} (hb : isBlank b = false)
    (ht : ∀ rest, token? b rest = some (t, rest)) (rest : List UInt8) :
    Scans (b :: rest) [t] rest :=
  .token [] hb (ht rest) (.done rest)

theorem scans_comma (rest : List UInt8) : Scans (0x2c :: rest) [.comma] rest :=
  scans_mark rfl (fun _ => rfl) rest

theorem scans_colon (rest : List UInt8) : Scans (0x3a :: rest) [.colon] rest :=
  scans_mark rfl (fun _ => rfl) rest

theorem scans_printText (s : String) (rest : List UInt8) :
    Scans (printText s ++ rest) [.text (.text s)] rest := by
  obtain ⟨part, hp, ht⟩ := token?_printText s rest
  rw [hp]
  exact .token part rfl ht (.done rest)

theorem scans_numeral {x : Numeral} (hx : x.Plain) (hr : Ends rest) :
    Scans (x.bytes ++ rest) [.scalar x.toNode] rest := by
  obtain ⟨b, part, hb, hn, ht⟩ := token?_numeral hx
  rw [hb]
  exact .token part hn (ht rest hr) (.done rest)

/-- No numeral goes on with a byte that is none of its own. -/
theorem ends_cons {b : UInt8} (hb : digit? b = none ∧ b ≠ 0x2e ∧ b ≠ 0x65 ∧ b ≠ 0x45)
    (rest : List UInt8) : Ends (b :: rest) := fun c hc => by
  obtain rfl : b = c := Option.some.inj hc
  exact hb

theorem ends_printItems (vs : List Value) (rest : List UInt8) :
    Ends (printItems vs ++ 0x5d :: rest) := by
  cases vs with
  | nil => exact ends_cons (by decide) _
  | cons v vs => exact ends_cons (by decide) _

theorem ends_printFields (fields : List (String × Value)) (rest : List UInt8) :
    Ends (printFields fields ++ 0x7d :: rest) := by
  cases fields with
  | nil => exact ends_cons (by decide) _
  | cons f fields => exact ends_cons (by decide) _

/-- Items that each give their tokens give them one after the other. -/
theorem scans_printItems {vs : List Value}
    (h : ∀ v ∈ vs, ∀ rest, Ends rest → Scans (print v ++ rest) (tokensOf v) rest)
    (rest : List UInt8) :
    Scans (printItems vs ++ 0x5d :: rest) (itemTokens vs ++ [.closeArray]) rest := by
  induction vs with
  | nil => exact scans_mark rfl (fun _ => rfl) rest
  | cons v vs ih =>
    have hv := h v (by simp) _ (ends_printItems vs rest)
    have hs := ih fun w hw => h w (by simp [hw])
    have hc := (scans_comma _).trans (hv.trans hs)
    simpa [printItems, itemTokens] using hc

theorem scans_printFields {fields : List (String × Value)}
    (h : ∀ f ∈ fields, ∀ rest, Ends rest → Scans (print f.2 ++ rest) (tokensOf f.2) rest)
    (rest : List UInt8) :
    Scans (printFields fields ++ 0x7d :: rest) (fieldTokens fields ++ [.closeObject]) rest := by
  induction fields with
  | nil => exact scans_mark rfl (fun _ => rfl) rest
  | cons f fields ih =>
    obtain ⟨key, v⟩ := f
    have hv := h (key, v) (by simp) _ (ends_printFields fields rest)
    have hs := ih fun g hg => h g (by simp [hg])
    have hc := (scans_comma _).trans ((scans_printText key _).trans
      ((scans_colon _).trans (hv.trans hs)))
    simpa [printFields, fieldTokens] using hc

theorem scans_printArray {items : List Value}
    (h : ∀ v ∈ items, ∀ rest, Ends rest → Scans (print v ++ rest) (tokensOf v) rest)
    (rest : List UInt8) :
    Scans (print (.array items) ++ rest) (tokensOf (.array items)) rest := by
  have ho (rest : List UInt8) : Scans (0x5b :: rest) [.openArray] rest :=
    scans_mark rfl (fun _ => rfl) rest
  cases items with
  | nil => exact (ho _).trans (scans_mark rfl (fun _ => rfl) rest)
  | cons v vs =>
    have hv := h v (by simp) _ (ends_printItems vs rest)
    have hs : Scans (printItems vs ++ 0x5d :: rest) (itemTokens vs ++ [.closeArray]) rest :=
      scans_printItems (fun w hw => h w (List.mem_cons_of_mem v hw)) rest
    simpa [print, tokensOf] using (ho _).trans (hv.trans hs)

/-- An object gives its tokens if the values of its fields do, whatever stands behind it. -/
theorem scans_printObject {fields : List (String × Value)}
    (h : ∀ f ∈ fields, ∀ rest, Ends rest → Scans (print f.2 ++ rest) (tokensOf f.2) rest)
    (rest : List UInt8) :
    Scans (print (.object fields) ++ rest) (tokensOf (.object fields)) rest := by
  have ho (rest : List UInt8) : Scans (0x7b :: rest) [.openObject] rest :=
    scans_mark rfl (fun _ => rfl) rest
  cases fields with
  | nil => exact (ho _).trans (scans_mark rfl (fun _ => rfl) rest)
  | cons f fields =>
    obtain ⟨key, v⟩ := f
    have hv := h (key, v) (by simp) _ (ends_printFields fields rest)
    have hs : Scans (printFields fields ++ 0x7d :: rest) (fieldTokens fields ++ [.closeObject])
        rest := scans_printFields (fun g hg => h g (List.mem_cons_of_mem _ hg)) rest
    have hk := (scans_printText key _).trans ((scans_colon _).trans (hv.trans hs))
    simpa [print, tokensOf] using (ho _).trans hk

/-- **A written value gives its tokens.** -/
theorem scans_print (v : Value) (hb : v.Bounded) (rest : List UInt8) (hr : Ends rest) :
    Scans (print v ++ rest) (tokensOf v) rest := by
  induction v using Value.induct generalizing rest with
  | null => exact .token [0x75, 0x6c, 0x6c] rfl rfl (.done rest)
  | bool b =>
    cases b with
    | true => exact .token [0x72, 0x75, 0x65] rfl rfl (.done rest)
    | false => exact .token [0x61, 0x6c, 0x73, 0x65] rfl rfl (.done rest)
  | int n =>
    obtain ⟨hl, hu⟩ : -0x8000000000000000 ≤ n ∧ n < 0x10000000000000000 := by
      simpa [Value.Bounded, Value.all, Value.isBounded] using hb
    have hx := scans_numeral (plain_intNumeral n) hr
    rw [toNode_intNumeral hl hu, ← printInt_eq] at hx
    exact hx
  | double x =>
    have hx := scans_numeral (plain_doubleNumeral x) hr
    rw [← ascii_doubleText] at hx
    exact hx
  | text s => exact scans_printText s rest
  | array items ih =>
    obtain ⟨-, hb⟩ := Value.all_array.1 hb
    exact scans_printArray (fun v hv => ih v hv (hb v hv)) rest
  | object fields ih =>
    obtain ⟨-, hb⟩ := Value.all_object.1 hb
    exact scans_printObject (fun f hf => ih f hf (hb f hf)) rest

theorem scans_object {fields : List (String × Value)} (hb : (Value.object fields).Bounded)
    (rest : List UInt8) :
    Scans (print (.object fields) ++ rest) (tokensOf (.object fields)) rest :=
  scans_printObject (fun f hf => scans_print f.2 ((Value.all_object.1 hb).2 f hf)) rest

end DocWire.Json
