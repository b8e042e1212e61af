import PackageDocs.Proofs.Signature.Qualifiers
import PackageDocs.Signature.Reference

/-!
# Names in front

A word refers to the documented name that leads it: the longest identifier behind its
opening brackets, if that starts with a capital letter and the qualifier of the word is
admitted.

## Main definitions

- `Scope.IsIdentifier`, `Scope.Leads`: identifiers, and the longest one at the start of a text
- `Scope.Refers`: a word refers to a documented name

## Main results

- `Scope.Leads.eq_takeWhile`, `Scope.leads_takeWhile`: the longest identifier is a run of
  characters
- `Scope.reference?_eq_some_iff`: a reference is found if and only if the word refers to it
-/

namespace PackageDocs

open Text

namespace Scope

/-- A letter of the alphabet or an underscore, then any number of letters, digits,
underscores and apostrophes. -/
def IsIdentifier : Text → Prop
  | [] => False
  | c :: rest => (c.isAlpha = true ∨ c = '_') ∧ ∀ d ∈ rest, isNameChar d = true

/-- The identifier stands at the start of the text, and no longer one does. -/
structure Leads (name t : Text) : Prop where
  identifier : IsIdentifier name
  starts : name <+: t
  longest : ∀ other, IsIdentifier other → other <+: t → other.length ≤ name.length

theorem IsIdentifier.forall_isNameChar {name : Text} (h : IsIdentifier name) :
    ∀ c ∈ name, isNameChar c = true := by
  cases name with
  | nil => simp
  | cons c rest =>
    intro d hd
    rcases List.mem_cons.1 hd with rfl | hd
    · rcases h.1 with hc | rfl
      · simp [isNameChar, Char.isAlphanum, hc]
      · decide
    · exact h.2 d hd

/-- What no identifier holds starts none. -/
theorem isNameStart_eq_false {c : Char} (h : isNameChar c = false) : isNameStart c = false := by
  obtain ⟨⟨⟨halpha, -⟩, hunderscore⟩, -⟩ :
      ((c.isAlpha = false ∧ c.isDigit = false) ∧ c ≠ '_') ∧ c ≠ '\'' := by
    simpa [isNameChar, Char.isAlphanum] using h
  simp [isNameStart, halpha, hunderscore]

/-- No identifier holds an opening bracket. -/
theorem isNameChar_of_mem_openers {c : Char} {word : Text} (h : c ∈ Word.openers word) :
    isNameChar c = false := by
  have hopener : c ∈ ['(', '{', '['] := Word.isOpener_iff.1 (List.mem_takeWhile_imp h)
  simp only [List.mem_cons, List.not_mem_nil, or_false] at hopener
  rcases hopener with rfl | rfl | rfl <;> decide

theorem IsIdentifier.ne_nil {name : Text} (h : IsIdentifier name) : name ≠ [] := by
  rintro rfl
  exact h

/-- The longest identifier is the run of characters that an identifier may hold. -/
theorem Leads.eq_takeWhile {name t : Text} (h : Leads name t) : name = t.takeWhile isNameChar := by
  have hname := h.identifier.forall_isNameChar
  obtain ⟨rest, rfl⟩ := h.starts
  -- Any longer run would be a longer identifier.
  have hrun : (name ++ rest).takeWhile isNameChar = name ++ rest.takeWhile isNameChar :=
    List.takeWhile_append_of_pos hname
  have hid : IsIdentifier (name ++ rest.takeWhile isNameChar) := by
    obtain ⟨c, tail, rfl⟩ := List.exists_cons_of_ne_nil h.identifier.ne_nil
    refine ⟨h.identifier.1, ?_⟩
    intro d hd
    rcases List.mem_append.1 hd with hd | hd
    · exact h.identifier.2 d hd
    · exact List.all_eq_true.1 List.all_takeWhile d hd
  have hle := h.longest _ hid (hrun ▸ List.takeWhile_prefix isNameChar)
  rw [hrun, List.self_eq_append_right]
  rw [List.length_append] at hle
  exact List.eq_nil_of_length_eq_zero (by omega)

/-- Where a text starts like an identifier, the run of such characters leads it. -/
theorem leads_takeWhile {c : Char} {rest : Text} (hc : c.isAlpha = true ∨ c = '_') :
    Leads ((c :: rest).takeWhile isNameChar) (c :: rest) := by
  have hfirst : isNameChar c = true := by
    rcases hc with hc | rfl
    · simp [isNameChar, Char.isAlphanum, hc]
    · decide
  refine ⟨?_, List.takeWhile_prefix _, ?_⟩
  · rw [List.takeWhile_cons_of_pos hfirst]
    exact ⟨hc, List.all_eq_true.1 List.all_takeWhile⟩
  · rintro other hother ⟨tail, htail⟩
    rw [← htail, List.takeWhile_append_of_pos hother.forall_isNameChar, List.length_append]
    omega

/-- What follows the longest identifier cannot extend it. -/
theorem Leads.isNameChar_head? {name after : Text} (h : Leads name (name ++ after)) :
    ∀ c ∈ after.head?, isNameChar c = false := by
  have hrun := h.eq_takeWhile
  rw [List.takeWhile_append_of_pos h.identifier.forall_isNameChar,
    List.self_eq_append_right] at hrun
  cases after with
  | nil => simp
  | cons d after =>
    intro c hc
    obtain rfl : d = c := by simpa using hc
    cases hd : isNameChar d with
    | false => rfl
    | true =>
      rw [List.takeWhile_cons_of_pos hd] at hrun
      simp at hrun

/-- The word refers to the documented name: it has no qualifier or the module's own, and
the capitalized name leads the word shown, its opening brackets skipped. -/
structure Refers (scope : Scope) (word name : Text) : Prop where
  qualifier : Word.qualifier word = [] ∨ scope.module = some (Word.qualifier word)
  leads : Leads name (Word.body (Word.dropQualifier word))
  capital : ∃ c rest, name = c :: rest ∧ 'A' ≤ c ∧ c ≤ 'Z'
  documented : name ∈ scope.names

variable {scope : Scope} {word name : Text}

/-- A word that refers to a name is shown as its brackets, the name and what is left. -/
theorem Refers.openers_append (h : scope.Refers word name) :
    Word.openers (Word.dropQualifier word) ++
        (name ++ (Word.body (Word.dropQualifier word)).drop name.length) =
      Word.dropQualifier word := by
  obtain ⟨rest, hrest⟩ := h.leads.starts
  rw [← hrest, List.drop_left, hrest, Word.openers_append_body]

/-- What is left of the word cannot extend the name. -/
theorem Refers.isNameChar_head? (h : scope.Refers word name) :
    ∀ c ∈ ((Word.body (Word.dropQualifier word)).drop name.length).head?,
      isNameChar c = false := by
  have hleads := h.leads
  obtain ⟨rest, hrest⟩ := hleads.starts
  rw [← hrest] at hleads ⊢
  rw [List.drop_left]
  exact hleads.isNameChar_head?

theorem admits_iff {qualifier : Text} :
    scope.admits qualifier = true ↔ qualifier = [] ∨ scope.module = some qualifier := by
  simp [admits]

theorem isUpper_iff {c : Char} : c.isUpper = true ↔ 'A' ≤ c ∧ c ≤ 'Z' :=
  decide_eq_true_iff

/-- The documented name at the start of a text leads it and starts with a capital. -/
theorem nameAtStart?_eq_some_iff {t : Text} :
    scope.nameAtStart? t = some name ↔
      Leads name t ∧ (∃ c rest, name = c :: rest ∧ 'A' ≤ c ∧ c ≤ 'Z') ∧ name ∈ scope.names := by
  cases t with
  | nil =>
    constructor
    · simp [nameAtStart?]
    · rintro ⟨hleads, -, -⟩
      exact absurd (List.prefix_nil.1 hleads.starts) hleads.identifier.ne_nil
  | cons c t =>
    simp only [nameAtStart?, Option.ite_none_right_eq_some, Bool.and_eq_true,
      List.contains_iff_mem, Option.some.injEq]
    constructor
    · rintro ⟨⟨hc, hmem⟩, rfl⟩
      have halpha : c.isAlpha = true := Bool.or_eq_true_iff.2 (Or.inl hc)
      refine ⟨leads_takeWhile (Or.inl halpha), ?_, hmem⟩
      have hfirst : isNameChar c = true := by simp [isNameChar, Char.isAlphanum, halpha]
      exact ⟨c, _, List.takeWhile_cons_of_pos hfirst, isUpper_iff.1 hc⟩
    · rintro ⟨hleads, ⟨d, rest, rfl, hd⟩, hmem⟩
      obtain rfl : d = c := (List.cons_prefix_cons.1 hleads.starts).1
      have hrun := hleads.eq_takeWhile
      exact ⟨⟨isUpper_iff.2 hd, hrun ▸ hmem⟩, hrun.symm⟩

/-- A reference is found if and only if the word refers to it; it is shown between the
opening brackets and the rest of the word. -/
theorem reference?_eq_some_iff {before after : Text} :
    scope.reference? word = some (before, name, after) ↔
      scope.Refers word name ∧ before = Word.openers (Word.dropQualifier word) ∧
        after = (Word.body (Word.dropQualifier word)).drop name.length := by
  constructor
  · intro h
    unfold reference? at h
    split at h
    · next hadmits =>
      obtain ⟨found, hfound, heq⟩ := Option.map_eq_some_iff.1 h
      obtain ⟨rfl, rfl, rfl⟩ : _ ∧ found = name ∧ _ := by simpa using heq
      obtain ⟨hleads, hcapital, hmem⟩ := nameAtStart?_eq_some_iff.1 hfound
      exact ⟨⟨admits_iff.1 hadmits, hleads, hcapital, hmem⟩, rfl, rfl⟩
    · simp at h
  · rintro ⟨h, rfl, rfl⟩
    have hfound := nameAtStart?_eq_some_iff.2 ⟨h.leads, h.capital, h.documented⟩
    rw [reference?, if_pos (admits_iff.2 h.qualifier)]
    simp only [hfound, Option.map_some]

theorem reference?_eq_none (h : ∀ name, ¬ scope.Refers word name) :
    scope.reference? word = none := by
  cases href : scope.reference? word with
  | none => rfl
  | some found => exact absurd (reference?_eq_some_iff.1 href).1 (h found.2.1)

end Scope

end PackageDocs
