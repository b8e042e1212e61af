import PackageDocs.Json.Lexeme
import PackageDocs.Json.Writer

/-!
# Written pieces of a data file

What is written for a text or a number is read back as far as it was written, and what
follows stays. A text ends by itself, at its closing quote; a number ends only where no
character follows that could belong to it.

## Main definitions

- `Json.EndsNumber`: what follows belongs to no number in front of it

## Main results

- `Json.readQuoted?_append`, `Json.readNumber?_append`: texts and integers are read back
- `Json.readLexeme?_text`, `Json.exists_readLexeme?_ofInt`: each of them is one lexeme
-/

namespace PackageDocs

namespace Json

-- ═════════════════════════════════════════════════════════════════════════════
-- Quoted texts
-- ═════════════════════════════════════════════════════════════════════════════

/-- The digits of a control character are two zeros and two more, and they are read back. -/
theorem hexUnit?_hexDigits : ∀ n < 0x20,
    Text.hexDigits 4 n = ['0', '0', Nat.digitChar (n / 16), Nat.digitChar (n % 16)] ∧
      hexUnit? '0' '0' (Nat.digitChar (n / 16)) (Nat.digitChar (n % 16)) = some n := by
  decide

/-- A character is written with one character behind a backslash, with its digits, or as
it is. -/
theorem escape_cases (c : Char) :
    (∃ e, escape c = ['\\', e] ∧ e ≠ 'u' ∧ escaped? e = some c) ∨
      (escape c = '\\' :: 'u' :: Text.hexDigits 4 c.toNat ∧ c.toNat < 0x20) ∨
      (escape c = [c] ∧ c ≠ '"' ∧ c ≠ '\\' ∧ ¬ c.toNat < 0x20) := by
  unfold escape
  split
  · next h => exact Or.inl ⟨'"', rfl, by decide, by rw [h]; rfl⟩
  next hquote =>
  split
  · next h => exact Or.inl ⟨'\\', rfl, by decide, by rw [h]; rfl⟩
  next hbackslash =>
  iterate 5
    split
    · next h => exact Or.inl ⟨_, rfl, by decide, by rw [h]; rfl⟩
  split
  · next hcontrol => exact Or.inr (Or.inl ⟨rfl, hcontrol⟩)
  · next hcontrol => exact Or.inr (Or.inr ⟨rfl, hquote, hbackslash, hcontrol⟩)

/-- A written character is read back as its code point. -/
theorem readUnits?_escape_append (c : Char) {t after : Text} {units : List Nat}
    (h : readUnits? t = some (units, after)) :
    readUnits? (escape c ++ t) = some (c.toNat :: units, after) := by
  rcases escape_cases c with ⟨e, hescape, hu, hescaped⟩ | ⟨hescape, hcontrol⟩ |
    ⟨hescape, hquote, hbackslash, hcontrol⟩
  · simp [hescape, readUnits?, hu, hescaped, h]
  · obtain ⟨hdigits, hunit⟩ := hexUnit?_hexDigits c.toNat hcontrol
    simp [hescape, readUnits?, hdigits, hunit, h]
  · simp [hescape, readUnits?, hbackslash, hcontrol, h]

theorem readUnits?_flatMap_escape (t after : Text) :
    readUnits? (t.flatMap escape ++ '"' :: after) = some (t.map Char.toNat, after) := by
  induction t with
  | nil => rfl
  | cons c t ih =>
    rw [List.flatMap_cons, List.append_assoc, readUnits?_escape_append c ih]
    rfl

/-- No character is half of one. -/
theorem isLead_isTrail_toNat (c : Char) : isLead c.toNat = false ∧ isTrail c.toNat = false := by
  have hvalid : c.toNat < 0xD800 ∨ 0xDFFF < c.toNat ∧ c.toNat < 0x110000 := c.valid
  simp only [isLead, isTrail, Bool.and_eq_false_iff, decide_eq_false_iff_not]
  omega

theorem ofUnits_map_toNat (t : Text) : ofUnits (t.map Char.toNat) = t := by
  have hchar : ∀ c : Char, unitChar c.toNat = c := by
    intro c
    simp [unitChar, isLead_isTrail_toNat c]
  induction t with
  | nil => rfl
  | cons c t ih =>
    cases t with
    | nil => exact congrArg (· :: []) (hchar c)
    | cons d t =>
      rw [List.map_cons, List.map_cons, ofUnits, (isLead_isTrail_toNat c).1, Bool.false_and,
        if_neg Bool.false_ne_true, hchar, ← List.map_cons, ih]

/-- A text between quotes is read back from behind its opening quote. -/
theorem readQuoted?_append (t after : Text) :
    readQuoted? (t.flatMap escape ++ '"' :: after) = some (t, after) := by
  rw [readQuoted?, readUnits?_flatMap_escape]
  exact congrArg (fun text => some (text, after)) (ofUnits_map_toNat t)

-- ═════════════════════════════════════════════════════════════════════════════
-- Numbers
-- ═════════════════════════════════════════════════════════════════════════════

/-- No character follows that could belong to a number. -/
def EndsNumber (after : Text) : Prop :=
  ∀ c ∈ after.head?, c.isDigit = false ∧ c ≠ '.' ∧ c ≠ 'e' ∧ c ≠ 'E'

theorem endsNumber_nil : EndsNumber [] := by
  simp [EndsNumber]

theorem endsNumber_cons {c : Char} {after : Text} :
    EndsNumber (c :: after) ↔ c.isDigit = false ∧ c ≠ '.' ∧ c ≠ 'e' ∧ c ≠ 'E' := by
  simp [EndsNumber]

variable {after : Text}

theorem EndsNumber.takeWhile_isDigit (h : EndsNumber after) :
    after.takeWhile Char.isDigit = [] := by
  cases after with
  | nil => rfl
  | cons c after => simp [endsNumber_cons.1 h]

theorem EndsNumber.fractionDigits_eq (h : EndsNumber after) : fractionDigits after = [] := by
  unfold fractionDigits
  split
  · exact absurd rfl (endsNumber_cons.1 h).2.1
  · rfl

theorem EndsNumber.exponentDigits_eq (h : EndsNumber after) : exponentDigits after = [] := by
  cases after with
  | nil => rfl
  | cons c after => simp [exponentDigits, endsNumber_cons.1 h]

theorem isDigit_of_mem_ofNat {c : Char} {n : Nat} (h : c ∈ Text.ofNat n) : c.isDigit = true :=
  Nat.isDigit_of_mem_toDigits (by decide) (by decide) h

theorem exists_ofNat_eq_cons (n : Nat) :
    ∃ c rest, Text.ofNat n = c :: rest ∧ c.isDigit = true := by
  have hne : Text.ofNat n ≠ [] := Nat.toDigits_ne_nil
  obtain ⟨c, rest, hdigits⟩ := List.exists_cons_of_ne_nil hne
  have hmem : c ∈ Text.ofNat n := hdigits ▸ List.mem_cons_self
  exact ⟨c, rest, hdigits, isDigit_of_mem_ofNat hmem⟩

/-- Only the digits of zero start with a zero. -/
theorem head?_ofNat {n : Nat} (h : n ≠ 0) : (Text.ofNat n).head? ≠ some '0' := by
  induction n using Nat.strongRecOn with
  | ind n ih =>
    rw [Text.ofNat, Nat.toDigits_eq_if (by decide)]
    split
    · simpa [Nat.digitChar_eq_zero] using h
    · have hrest := ih (n / 10) (by omega) (by omega)
      obtain ⟨c, rest, hdigits, -⟩ := exists_ofNat_eq_cons (n / 10)
      rw [hdigits] at hrest
      rw [Text.ofNat] at hdigits
      simpa [hdigits] using hrest

/-- The digits of a number are read to their end. -/
theorem wholeDigits_append (n : Nat) (h : EndsNumber after) :
    wholeDigits (Text.ofNat n ++ after) = Text.ofNat n := by
  by_cases hn : n = 0
  · rw [hn]
    rfl
  · unfold wholeDigits
    split
    · next rest hzero =>
      obtain ⟨c, digits, hdigits, -⟩ := exists_ofNat_eq_cons n
      have hhead := head?_ofNat hn
      rw [hdigits] at hzero hhead
      exact absurd (congrArg some (List.cons.inj hzero).1) hhead
    · rw [List.takeWhile_append_of_pos fun c => isDigit_of_mem_ofNat, h.takeWhile_isDigit,
        List.append_nil]

theorem readUnsigned?_append (negative : Bool) (n : Nat) (h : EndsNumber after) :
    readUnsigned? negative (Text.ofNat n ++ after) =
      some (.int (if negative then -n else n), after) := by
  have hwhole : (Text.ofNat n).isEmpty = false := by
    obtain ⟨c, rest, hdigits, -⟩ := exists_ofNat_eq_cons n
    rw [hdigits]
    rfl
  have hvalue : Nat.ofDigitChars 10 (Text.ofNat n) 0 = n := Nat.ofDigitChars_ten_toDigits
  simp only [readUnsigned?, wholeDigits_append n h, List.drop_left, h.fractionDigits_eq,
    List.length_nil, List.drop_zero, h.exponentDigits_eq, hwhole, hvalue]
  rfl

/-- An integer is read to its end. -/
theorem readNumber?_append (n : Int) (h : EndsNumber after) :
    readNumber? (Text.ofInt n ++ after) = some (.int n, after) := by
  cases n with
  | ofNat n =>
    obtain ⟨c, rest, hdigits, hc⟩ := exists_ofNat_eq_cons n
    have hminus : c ≠ '-' := by
      rintro rfl
      exact absurd hc (by decide)
    have hread := readUnsigned?_append false n h
    rw [Text.ofInt]
    rw [hdigits] at hread ⊢
    rw [List.cons_append, readNumber?]
    · exact hread
    · simp [hminus]
  | negSucc n => exact readUnsigned?_append true (n + 1) h

-- ═════════════════════════════════════════════════════════════════════════════
-- Lexemes
-- ═════════════════════════════════════════════════════════════════════════════

theorem writeText_append (t after : Text) :
    writeText t ++ after = '"' :: (t.flatMap escape ++ '"' :: after) := by
  simp [writeText]

/-- A text is read as one lexeme. -/
theorem readLexeme?_text (t after : Text) :
    readLexeme? '"' (t.flatMap escape ++ '"' :: after) = some (.text t, after) := by
  rw [readLexeme?, readQuoted?_append]
  rfl

/-- A digit starts no word for a value, and neither does a minus sign with a digit behind
it. -/
theorem readLiteral?_eq_none {c : Char} {rest : Text}
    (h : c.isDigit = true ∨ c = '-' ∧ ∀ d ∈ rest.head?, d.isDigit = true) :
    readLiteral? (c :: rest) = none := by
  have hdigit : ∀ d : Char, d.isDigit = true →
      d ≠ 'n' ∧ d ≠ 't' ∧ d ≠ 'f' ∧ d ≠ 'N' ∧ d ≠ 'I' ∧ d ≠ '-' := by
    intro d hd
    refine ⟨?_, ?_, ?_, ?_, ?_, ?_⟩ <;>
    · rintro rfl
      exact absurd hd (by decide)
  rcases h with hc | ⟨rfl, hrest⟩
  · obtain ⟨hn, ht, hf, hN, hI, hminus⟩ := hdigit c hc
    simp [readLiteral?, literals, hn.symm, ht.symm, hf.symm, hN.symm, hI.symm, hminus.symm]
  · cases rest with
    | nil => rfl
    | cons d rest =>
      obtain ⟨-, -, -, -, hI, -⟩ := hdigit d (hrest d rfl)
      simp [readLiteral?, literals, hI.symm]

/-- An integer is read as one lexeme. -/
theorem exists_readLexeme?_ofInt (n : Int) (h : EndsNumber after) :
    ∃ c rest, Text.ofInt n ++ after = c :: rest ∧ isGap c = false ∧
      readLexeme? c rest = some (.scalar (.int n), after) := by
  obtain ⟨c, rest, heq, hstart⟩ : ∃ c rest, Text.ofInt n ++ after = c :: rest ∧
      (c.isDigit = true ∨ c = '-' ∧ ∀ d ∈ rest.head?, d.isDigit = true) := by
    cases n with
    | ofNat n =>
      obtain ⟨c, rest, hdigits, hc⟩ := exists_ofNat_eq_cons n
      exact ⟨c, rest ++ after, by rw [Text.ofInt, hdigits]; rfl, Or.inl hc⟩
    | negSucc n =>
      obtain ⟨c, rest, hdigits, hc⟩ := exists_ofNat_eq_cons (n + 1)
      refine ⟨'-', c :: (rest ++ after), by rw [Text.ofInt, hdigits]; rfl, Or.inr ⟨rfl, ?_⟩⟩
      simpa using hc
  have hnumber := readNumber?_append n h
  rw [heq] at hnumber
  have hother : ∀ d : Char, d.isDigit = false → d ≠ '-' → c ≠ d := by
    rintro d hdigit hminus rfl
    rcases hstart with hc | ⟨hc, -⟩
    · exact absurd hdigit (by simp [hc])
    · exact hminus hc
  refine ⟨c, rest, heq, ?_, ?_⟩
  · simp [isGap, hother]
  · unfold readLexeme?
    split <;> first
      | exact absurd rfl (hother _ (by decide) (by decide))
      | rw [readLiteral?_eq_none hstart, Option.none_or, hnumber, Option.map_some]

end Json

end PackageDocs
