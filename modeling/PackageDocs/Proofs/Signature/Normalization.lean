import Mathlib.Data.List.Chain
import PackageDocs.Proofs.Signature.Qualifiers
import PackageDocs.Proofs.Text.Trim

/-!
# Normalized types

A type is normalized word by word. The result has single spaces between its words and no
other blank, and no qualifier is left to drop: what stands behind a last dot has no dot.

## Main definitions

- `Text.IsSpaced`: single spaces and no other blank

## Main results

- `Text.isSpaced_intercalate`: words written with single spaces
- `Word.dropQualifier_dropQualifier`: nothing is left to drop
- `normalizeType_wordwise`: the words of a normalized type, and the blanks between them
-/

namespace PackageDocs

namespace Text

/-- No blank at either end, none next to another, and none but the space. -/
structure IsSpaced (t : Text) : Prop where
  trimmed : IsTrimmed t
  single : t.IsChain fun c d => ¬ (isBlank c = true ∧ isBlank d = true)
  space : ∀ c ∈ t, isBlank c = true → c = ' '

theorem IsWord.isTrimmed {w : Text} (hw : IsWord w) : IsTrimmed w where
  first := fun c hc => hw.solid c (List.mem_of_mem_head? hc)
  last := fun c hc => hw.solid c (List.mem_of_mem_getLast? hc)

theorem IsWord.isChain {w : Text} (hw : IsWord w) :
    w.IsChain fun c d => ¬ (isBlank c = true ∧ isBlank d = true) := by
  apply List.Pairwise.isChain
  apply List.pairwise_of_forall_mem_list
  intro c hc d _
  simp [hw.solid c hc]

variable {ws : List Text}

theorem isTrimmed_intercalate_words (h : ∀ w ∈ ws, IsWord w) :
    IsTrimmed ([' '].intercalate ws) :=
  isTrimmed_intercalate [' '] fun w hw => ⟨(h w hw).ne_nil, (h w hw).isTrimmed⟩

/-- The space between two words has no other blank beside it. -/
theorem isChain_intercalate_words (h : ∀ w ∈ ws, IsWord w) :
    ([' '].intercalate ws).IsChain fun c d => ¬ (isBlank c = true ∧ isBlank d = true) := by
  induction ws with
  | nil => exact .nil
  | cons w ws ih =>
    have hw : IsWord w := h w List.mem_cons_self
    have hws : ∀ v ∈ ws, IsWord v := fun v hv => h v (List.mem_cons_of_mem w hv)
    cases ws with
    | nil =>
      rw [List.intercalate_singleton]
      exact hw.isChain
    | cons v vs =>
      rw [List.intercalate_cons_cons, List.append_assoc]
      apply hw.isChain.append
      · apply (ih hws).cons
        intro d hd
        simp [(isTrimmed_intercalate_words hws).first d hd]
      · intro c hc d _
        simp [hw.isTrimmed.last c hc]

theorem isSpaced_intercalate (h : ∀ w ∈ ws, IsWord w) : IsSpaced ([' '].intercalate ws) where
  trimmed := isTrimmed_intercalate_words h
  single := isChain_intercalate_words h
  space := by
    intro c hc hblank
    rcases mem_or_exists_mem_of_mem_intercalate hc with hc | ⟨w, hw, hcw⟩
    · exact List.mem_singleton.1 hc
    · rw [(h w hw).solid c hcw] at hblank
      exact absurd hblank Bool.false_ne_true

end Text

open Text

/-- What is left of a word has no dot behind its brackets, or is the word. -/
theorem Word.dropQualifier_dropQualifier (word : Text) :
    dropQualifier (dropQualifier word) = dropQualifier word := by
  rcases dropQualifier_cases word with h | ⟨rest, -, hrest, -, h⟩
  · rw [h, h]
  · have hopeners : '.' ∉ openers word := fun hdot => absurd (List.mem_takeWhile_imp hdot) (by decide)
    rw [h]
    apply dropQualifier_of_not_mem
    rw [List.mem_append, not_or]
    exact ⟨hopeners, hrest⟩

theorem isSpaced_normalizeType (type : Text) : IsSpaced (normalizeType type) := by
  apply isSpaced_intercalate
  intro w hw
  obtain ⟨v, hv, rfl⟩ := List.mem_map.1 hw
  exact Word.isWord_dropQualifier (isWord_of_mem_words hv)

theorem normalizeType_normalizeType (type : Text) :
    normalizeType (normalizeType type) = normalizeType type := by
  have hdrop : Word.dropQualifier ∘ Word.dropQualifier = Word.dropQualifier :=
    funext Word.dropQualifier_dropQualifier
  rw [normalizeType, words_normalizeType, List.map_map, hdrop, normalizeType]

theorem words_normalizeType_append {gap : Text} (hgap : IsGap gap) (s t : Text) :
    words (normalizeType (s ++ gap ++ t)) =
      words (normalizeType s) ++ words (normalizeType t) := by
  rw [List.append_assoc, words_normalizeType, words_append_gap hgap, List.map_append,
    ← words_normalizeType, ← words_normalizeType]

/-- **Types are normalized word by word.** A gap in a type separates what is normalized before
it from what is normalized behind it. A normalized type has as many words as the type, single
spaces between them and no other blank. It is its own normalized type, and that of the type
with its blanks squashed. -/
theorem normalizeType_wordwise (type : Text) :
    (∀ gap later, IsGap gap → words (normalizeType (type ++ gap ++ later)) =
      words (normalizeType type) ++ words (normalizeType later)) ∧
    (words (normalizeType type)).length = (words type).length ∧
    IsSpaced (normalizeType type) ∧
    normalizeType (normalizeType type) = normalizeType type ∧
    normalizeType (squash type) = normalizeType type := by
  refine ⟨?_, ?_, isSpaced_normalizeType type, normalizeType_normalizeType type,
    normalizeType_squash type⟩
  · intro gap later hgap
    exact words_normalizeType_append hgap type later
  · rw [words_normalizeType, List.length_map]

/-- A gap of several blanks, a dot that stays, and brackets behind a dot. -/
theorem normalizeType_wordwise_of_dots :
    let type := "\u00a0(A.B.x  Foo. M.(N".toList
    let gap := "\u2003\n".toList
    IsGap gap ∧ words (normalizeType (type ++ gap ++ "[P.Q".toList)) =
        ["(x".toList, "Foo.".toList, "(N".toList, "[Q".toList] ∧
      normalizeType (normalizeType type) = "(x Foo. (N".toList := by
  intro type gap
  have hgap : IsGap gap := (isGap_newline 0).cons (by decide +kernel)
  obtain ⟨hwords, -, -, htwice, -⟩ := normalizeType_wordwise type
  exact ⟨hgap, (hwords gap _ hgap).trans (by decide +kernel), htwice.trans (by decide +kernel)⟩

end PackageDocs
