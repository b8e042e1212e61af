import Mathlib.Tactic.MkIffOfInductiveProp
import PackageDocs.Proofs.Text.Words

/-!
# Outer blanks

Trimming takes away the blanks at the two ends of a text and nothing else: a text with
another character in it is the blanks before the first of them, the trimmed text, and the
blanks behind the last.

## Main definitions

- `Text.IsTrimmed`: no blank at either end
- `Text.IsBlankText`: nothing but blanks
- `Text.withoutBlanks`: everything but blanks

## Main results

- `Text.trim_append_append`: blanks around a text are trimmed away
- `Text.eq_append_trim_append`: what trimming takes away
- `Text.isTrimmed_intercalate`: trimmed parts give a trimmed whole
- `Text.withoutBlanks_trim`, `Text.words_trim`: trimming takes away nothing else, and no word
-/

namespace PackageDocs

namespace Text

/-- The text neither starts nor ends with a blank. -/
@[mk_iff]
structure IsTrimmed (t : Text) : Prop where
  first : ∀ c ∈ t.head?, isBlank c = false
  last : ∀ c ∈ t.getLast?, isBlank c = false

/-- All characters of the text are blank, if there are any. -/
def IsBlankText (t : Text) : Prop :=
  ∀ c ∈ t, isBlank c = true

instance : DecidablePred IsTrimmed := fun t =>
  have (end? : Option Char) : Decidable (∀ c ∈ end?, isBlank c = false) :=
    Option.decidableForallMem end?
  decidable_of_iff' _ (isTrimmed_iff t)

instance : DecidablePred IsBlankText := fun t => List.decidableBAll _ t

/-- The text without any of its blanks. -/
def withoutBlanks (t : Text) : Text :=
  t.filter fun c => !isBlank c

variable {s t : Text}

theorem isBlankText_nil : IsBlankText [] := by decide

theorem isBlankText_space : IsBlankText [' '] := by decide

theorem isBlankText_break : IsBlankText ['\n'] := by decide

theorem IsBlankText.append (hs : IsBlankText s) (ht : IsBlankText t) : IsBlankText (s ++ t) :=
  fun c hc => (List.mem_append.1 hc).elim (hs c) (ht c)

theorem dropWhile_isBlank_eq_self (h : ∀ c ∈ t.head?, isBlank c = false) :
    t.dropWhile isBlank = t := by
  cases t with
  | nil => rfl
  | cons c t => rw [List.dropWhile_cons, h c rfl]; rfl

theorem IsTrimmed.trim_eq (h : IsTrimmed t) : trim t = t := by
  have hlast : ∀ c ∈ t.reverse.head?, isBlank c = false := by
    rw [List.head?_reverse]
    exact h.last
  rw [trim, trimWhere, dropWhile_isBlank_eq_self h.first, dropWhile_isBlank_eq_self hlast,
    List.reverse_reverse]

/-- Blanks around a text are trimmed away. -/
theorem trim_append_append {lead tail : Text} (hlead : IsBlankText lead)
    (htail : IsBlankText tail) (t : Text) : trim (lead ++ t ++ tail) = trim t := by
  have hback : IsBlankText tail.reverse := fun c hc => htail c (List.mem_reverse.1 hc)
  rw [trim, trimWhere, trim, trimWhere, List.append_assoc, List.dropWhile_append_of_pos hlead,
    List.dropWhile_append]
  split
  · next hempty =>
    rw [List.isEmpty_iff.1 hempty, List.dropWhile_eq_nil_iff.2 htail]
  · rw [List.reverse_append, List.dropWhile_append_of_pos hback]

theorem takeWhile_isBlank_append (hs : ¬ IsBlankText s) (t : Text) :
    (s ++ t).takeWhile isBlank = s.takeWhile isBlank := by
  induction s with
  | nil => exact absurd isBlankText_nil hs
  | cons c s ih =>
    rw [List.cons_append, List.takeWhile_cons, List.takeWhile_cons]
    cases hc : isBlank c with
    | false => rfl
    | true =>
      have hrest : ¬ IsBlankText s := fun h => hs (List.forall_mem_cons.2 ⟨hc, h⟩)
      rw [ih hrest]

theorem rtakeWhile_isBlank_append (s : Text) (ht : ¬ IsBlankText t) :
    (s ++ t).rtakeWhile isBlank = t.rtakeWhile isBlank := by
  have hback : ¬ IsBlankText t.reverse := fun h => ht fun c hc => h c (List.mem_reverse.2 hc)
  rw [List.rtakeWhile, List.rtakeWhile, List.reverse_append, takeWhile_isBlank_append hback]

/-- What trimming takes away are the blanks at the two ends. -/
theorem eq_append_trim_append (h : ¬ IsBlankText t) :
    t = t.takeWhile isBlank ++ trim t ++ t.rtakeWhile isBlank := by
  have hrest : ¬ IsBlankText (t.dropWhile isBlank) := by
    intro hrest
    apply h
    rw [← List.takeWhile_append_dropWhile (p := isBlank) (l := t)]
    exact IsBlankText.append (fun c hc => List.mem_takeWhile_imp hc) hrest
  have hback : t.rtakeWhile isBlank = (t.dropWhile isBlank).rtakeWhile isBlank := by
    have happend := rtakeWhile_isBlank_append (t.takeWhile isBlank) hrest
    rwa [List.takeWhile_append_dropWhile] at happend
  have htrim : trim t = (t.dropWhile isBlank).rdropWhile isBlank := rfl
  rw [hback, htrim, List.append_assoc, List.rdropWhile_append_rtakeWhile,
    List.takeWhile_append_dropWhile]

theorem trim_eq_nil_iff : trim t = [] ↔ IsBlankText t := by
  constructor
  · intro h
    by_contra hblank
    have ht := eq_append_trim_append hblank
    rw [h, List.append_nil] at ht
    apply hblank
    rw [ht]
    exact IsBlankText.append (fun c hc => List.mem_takeWhile_imp hc)
      fun c hc => List.mem_rtakeWhile_imp hc
  · intro h
    rw [trim, trimWhere, List.dropWhile_eq_nil_iff.2 h]
    rfl

theorem isTrimmed_trim (t : Text) : IsTrimmed (trim t) := by
  have htrim : trim t = (t.dropWhile isBlank).rdropWhile isBlank := rfl
  rw [htrim]
  constructor
  · intro c hc
    rw [← List.head_of_head?_eq_some hc, (List.rdropWhile_prefix isBlank _).head]
    exact List.head_dropWhile_not isBlank _
  · intro c hc
    rw [← List.getLast_of_getLast?_eq_some hc]
    exact eq_false_of_ne_true (List.rdropWhile_last_not isBlank _ _)

theorem IsTrimmed.append (hs : IsTrimmed s) (ht : IsTrimmed t) (hs' : s ≠ []) (ht' : t ≠ [])
    (middle : Text) : IsTrimmed (s ++ middle ++ t) := by
  constructor
  · rw [List.append_assoc, List.head?_append_of_ne_nil _ hs']
    exact hs.first
  · rw [List.getLast?_append_of_ne_nil _ ht']
    exact ht.last

/-- Trimmed parts give a trimmed whole, whatever stands between them. -/
theorem isTrimmed_intercalate (sep : Text) {parts : List Text}
    (h : ∀ part ∈ parts, part ≠ [] ∧ IsTrimmed part) : IsTrimmed (sep.intercalate parts) := by
  induction parts with
  | nil => exact ⟨by simp, by simp⟩
  | cons part parts ih =>
    obtain ⟨hne, hpart⟩ := h part List.mem_cons_self
    have hparts : ∀ other ∈ parts, other ≠ [] ∧ IsTrimmed other := fun other hother =>
      h other (List.mem_cons_of_mem part hother)
    cases parts with
    | nil => rwa [List.intercalate_singleton]
    | cons other parts =>
      have hother : sep.intercalate (other :: parts) ≠ [] := by
        rw [intercalate_cons_eq_append_flatMap]
        exact List.append_ne_nil_of_left_ne_nil (hparts other List.mem_cons_self).1 _
      rw [List.intercalate_cons_cons]
      exact hpart.append (ih hparts) hne hother sep

theorem withoutBlanks_append (s t : Text) :
    withoutBlanks (s ++ t) = withoutBlanks s ++ withoutBlanks t :=
  List.filter_append s t

theorem IsBlankText.withoutBlanks_eq (h : IsBlankText t) : withoutBlanks t = [] := by
  rw [withoutBlanks, List.filter_eq_nil_iff]
  intro c hc
  simp [h c hc]

/-- Trimming takes away nothing but blanks. -/
theorem withoutBlanks_trim (t : Text) : withoutBlanks (trim t) = withoutBlanks t := by
  by_cases h : IsBlankText t
  · rw [trim_eq_nil_iff.2 h, h.withoutBlanks_eq]
    rfl
  · have hlead : IsBlankText (t.takeWhile isBlank) := fun c hc => List.mem_takeWhile_imp hc
    have htail : IsBlankText (t.rtakeWhile isBlank) := fun c hc => List.mem_rtakeWhile_imp hc
    conv_rhs => rw [eq_append_trim_append h]
    rw [withoutBlanks_append, withoutBlanks_append, hlead.withoutBlanks_eq,
      htail.withoutBlanks_eq, List.nil_append, List.append_nil]

/-- Parts are trimmed without losing anything but blanks. -/
theorem withoutBlanks_flatten_map_trim (parts : List Text) :
    withoutBlanks (parts.map trim).flatten = withoutBlanks parts.flatten := by
  induction parts with
  | nil => rfl
  | cons part parts ih =>
    rw [List.map_cons, List.flatten_cons, List.flatten_cons, withoutBlanks_append,
      withoutBlanks_append, withoutBlanks_trim, ih]

/-- Blanks between parts bring in nothing else. -/
theorem withoutBlanks_intercalate {sep : Text} (hsep : IsBlankText sep) (parts : List Text) :
    withoutBlanks (sep.intercalate parts) = withoutBlanks parts.flatten := by
  cases parts with
  | nil => rfl
  | cons first rest =>
    have hrest : withoutBlanks (rest.flatMap (sep ++ ·)) = withoutBlanks rest.flatten := by
      induction rest with
      | nil => rfl
      | cons part rest ih =>
        rw [List.flatMap_cons, List.flatten_cons, withoutBlanks_append, withoutBlanks_append,
          withoutBlanks_append, hsep.withoutBlanks_eq, ih, List.nil_append]
    rw [intercalate_cons_eq_append_flatMap, withoutBlanks_append, hrest, List.flatten_cons,
      withoutBlanks_append]

/-- A text without blanks is left as it is. -/
theorem withoutBlanks_eq_self (h : ∀ c ∈ t, isBlank c = false) : withoutBlanks t = t := by
  rw [withoutBlanks, List.filter_eq_self]
  intro c hc
  rw [h c hc]
  rfl

theorem IsBlankText.words_eq (h : IsBlankText t) : words t = [] := by
  simpa [words_nil] using words_append_of_blank h []

theorem words_trim (t : Text) : words (trim t) = words t := by
  by_cases h : IsBlankText t
  · rw [trim_eq_nil_iff.2 h, h.words_eq, words_nil]
  · have hlead : IsBlankText (t.takeWhile isBlank) := fun c hc => List.mem_takeWhile_imp hc
    have htail : IsBlankText (t.rtakeWhile isBlank) := fun c hc => List.mem_rtakeWhile_imp hc
    have hend : ∀ c ∈ (t.rtakeWhile isBlank).head?, isBlank c = true :=
      fun c hc => htail c (List.mem_of_mem_head? hc)
    conv_rhs => rw [eq_append_trim_append h]
    rw [words_append_of_head? _ hend, htail.words_eq, List.append_nil, words_append_of_blank hlead]

end Text

end PackageDocs
