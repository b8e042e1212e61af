import PackageDocs.Proofs.Signature.Records
import PackageDocs.Proofs.Signature.References

/-!
# Words of a record

Cutting a record may cut through its words. A word of two parts shows what its parts show and
carries the links that they carry, provided that its qualifier does not reach over the cut. So
the segments of a record show the same words as the whole, up to blanks, and carry the same
links.

## Main definitions

- `Word.IsCuttable`: no qualifier reaches over a comma or a closing brace of the word
- `Text.RecordEndsWord`: the brace that closes the record ends its word

## Main results

- `Scope.wordLink_append_comma`: the link of a word that goes on behind a comma
- `flatMap_words_splitRecord`: what the words of the segments give
- `withoutBlanks_splitRecord_normalizeType`, `links_splitRecord`: segments show and link
  what the record does
-/

namespace PackageDocs

open Text

theorem takeWhile_append_cons_of_neg {p : Char → Bool} {c : Char} (hc : p c = false)
    (s t : Text) : (s ++ c :: t).takeWhile p = s.takeWhile p := by
  induction s with
  | nil => exact List.takeWhile_cons_of_neg (by simp [hc])
  | cons a s ih => rw [List.cons_append, List.takeWhile_cons, List.takeWhile_cons, ih]

theorem dropWhile_append_cons_of_neg {p : Char → Bool} {c : Char} (hc : p c = false)
    (s t : Text) : (s ++ c :: t).dropWhile p = s.dropWhile p ++ c :: t := by
  induction s with
  | nil => exact List.dropWhile_cons_of_neg (by simp [hc])
  | cons a s ih =>
    rw [List.cons_append, List.dropWhile_cons, List.dropWhile_cons, ih]
    split <;> rfl

-- ═════════════════════════════════════════════════════════════════════════════
-- Words that are cut
-- ═════════════════════════════════════════════════════════════════════════════

namespace Word

/-- No qualifier reaches over a comma or a closing brace: no dot stands behind one of them, and
no comma right behind a dot. -/
def IsCuttable (word : Text) : Prop :=
  ∀ i < word.length,
    (word[i]? = some ',' ∨ word[i]? = some '}' → '.' ∉ word.drop (i + 1)) ∧
      (word[i]? = some '.' → word[i + 1]? ≠ some ',')

instance : DecidablePred IsCuttable := fun word =>
  inferInstanceAs (Decidable (∀ i < word.length, _ ∧ _))

variable {u v : Text}

theorem IsCuttable.of_suffix {word : Text} (h : IsCuttable word) (hv : v <:+ word) :
    IsCuttable v := by
  obtain ⟨front, rfl⟩ := hv
  intro i hi
  have hplace := h (front.length + i) (by rw [List.length_append]; omega)
  rw [Nat.add_assoc, List.drop_length_add_append] at hplace
  simpa [List.getElem?_append_right] using hplace

/-- Where a comma starts the second part or a closing brace ends the first, no qualifier
reaches over the cut. -/
theorem IsCuttable.not_reaches (h : IsCuttable (u ++ v))
    (hcut : v.head? = some ',' ∨ u.getLast? = some '}') :
    u.getLast? ≠ some '.' ∧ '.' ∉ v := by
  rcases hcut with hcut | hcut
  · obtain ⟨rest, rfl⟩ := List.head?_eq_some_iff.1 hcut
    refine ⟨?_, ?_⟩
    · intro hlast
      obtain ⟨front, rfl⟩ := List.getLast?_eq_some_iff.1 hlast
      exact (h front.length (by simp)).2 (by simp) (by simp)
    · have hrest := (h u.length (by simp)).1 (Or.inl (by simp))
      rw [List.drop_length_add_append] at hrest
      simpa using hrest
  · refine ⟨by simp [hcut], ?_⟩
    obtain ⟨front, rfl⟩ := List.getLast?_eq_some_iff.1 hcut
    have hrest := (h front.length (by simp)).1 (Or.inr (by simp))
    rw [List.append_assoc, List.drop_length_add_append] at hrest
    simpa using hrest

end Word

namespace Scope

variable {scope : Scope} {u : Text}

/-- A comma ends the identifier in front of it. -/
theorem nameAtStart?_append_comma (scope : Scope) (t rest : Text) :
    scope.nameAtStart? (t ++ ',' :: rest) = scope.nameAtStart? t := by
  cases t with
  | nil => rfl
  | cons c t =>
    have hrun : (c :: t ++ ',' :: rest).takeWhile isNameChar = (c :: t).takeWhile isNameChar :=
      takeWhile_append_cons_of_neg (by decide) (c :: t) rest
    rw [List.cons_append] at hrun
    rw [List.cons_append, nameAtStart?, nameAtStart?, hrun]

/-- The link of a word is on the documented name at the start of the word shown. -/
theorem wordLink_eq (scope : Scope) (word : Text) :
    scope.wordLink word =
      if scope.admits (Word.qualifier word) then
        ((scope.nameAtStart? (Word.body (Word.dropQualifier word))).map Token.reference).toList
      else [] := by
  by_cases hadmits : scope.admits (Word.qualifier word) = true
  · rw [wordLink, reference?, if_pos hadmits, if_pos hadmits]
    dsimp only
    cases scope.nameAtStart? (Word.body (Word.dropQualifier word)) <;> rfl
  · rw [wordLink, reference?, if_neg hadmits, if_neg hadmits]

/-- A part of a word that starts with a comma carries no link. -/
theorem wordLink_of_comma (scope : Scope) {rest : Text} (hrest : '.' ∉ rest) :
    scope.wordLink (',' :: rest) = [] := by
  have hdot : '.' ∉ ',' :: rest := by simpa using hrest
  have hbody : Word.body (',' :: rest) = ',' :: rest := List.dropWhile_cons_of_neg (by decide)
  have hname : scope.nameAtStart? (',' :: rest) = none := scope.nameAtStart?_append_comma [] rest
  rw [wordLink_eq, Word.dropQualifier_of_not_mem hdot, hbody, hname]
  exact ite_self []

/-- A word that goes on behind a comma carries the link of the part in front of it. -/
theorem wordLink_append_comma (scope : Scope) (hu : u.getLast? ≠ some '.') {rest : Text}
    (hrest : '.' ∉ rest) : scope.wordLink (u ++ ',' :: rest) = scope.wordLink u := by
  have hdot : '.' ∉ ',' :: rest := by simpa using hrest
  have hbody : Word.body (Word.dropQualifier u ++ ',' :: rest) =
      Word.body (Word.dropQualifier u) ++ ',' :: rest :=
    dropWhile_append_cons_of_neg (by decide) (Word.dropQualifier u) rest
  rw [wordLink_eq, Word.qualifier_append u hdot, Word.dropQualifier_append hu hdot, hbody,
    nameAtStart?_append_comma, ← wordLink_eq]

end Scope

-- ═════════════════════════════════════════════════════════════════════════════
-- Segments of a record
-- ═════════════════════════════════════════════════════════════════════════════

/-- The brace that closes the record ends its word: a blank stands behind it, or nothing. -/
def Text.RecordEndsWord (t : Text) : Prop :=
  ∀ i < t.length, t.EndsRecord i → ∀ c ∈ t[i]?, isBlank c = true

instance : DecidablePred Text.RecordEndsWord := fun t =>
  have (c? : Option Char) : Decidable (∀ c ∈ c?, isBlank c = true) := Option.decidableForallMem c?
  inferInstanceAs (Decidable (∀ i < t.length, t.EndsRecord i → ∀ c ∈ t[i]?, isBlank c = true))

/-- What the parts of a text between places of it give is what the text gives, if this is so
for the two parts at each place. -/
theorem flatMap_between {α : Type} {F : Text → List α} {t : Text} {places : List Nat} {start : Nat}
    (hsorted : (start :: places).Pairwise (· ≤ ·))
    (h : ∀ i ∈ places, ∀ start ≤ i,
      F (t.drop start) = F ((t.take i).drop start) ++ F (t.drop i)) :
    (t.between start (places.map fun i => (i, i))).flatMap F = F (t.drop start) := by
  induction places generalizing start with
  | nil => exact List.flatMap_singleton F _
  | cons i places ih =>
    obtain ⟨hstart, hrest⟩ := List.pairwise_cons.1 hsorted
    obtain ⟨hi, hplaces⟩ := List.forall_mem_cons.1 h
    rw [List.map_cons, Text.between, List.flatMap_cons, ih hrest hplaces,
      hi start (hstart i List.mem_cons_self)]

theorem head?_eq_getElem? {t v : Text} {i : Nat} (hv : v ≠ []) (h : v <+: t.drop i) :
    v.head? = t[i]? := by
  obtain ⟨rest, hrest⟩ := h
  obtain ⟨c, v, rfl⟩ := List.exists_cons_of_ne_nil hv
  rw [← List.head?_drop, ← hrest]
  rfl

/-- At a cut of a record a comma starts the second part, or the closing brace of the record
ends the first. -/
theorem head?_or_getLast?_of_mem_recordCuts {t u v : Text} {i : Nat} (hi : i ∈ recordCuts t)
    (hu : u ≠ []) (hv : v ≠ []) (hfinal : u <:+ t.take i) (hstarts : v <+: t.drop i) :
    v.head? = some ',' ∨ (u.getLast? = some '}' ∧ t.EndsRecord i) := by
  rcases of_decide_eq_true (List.mem_filter.1 hi).2 with hfield | hends
  · exact Or.inl ((head?_eq_getElem? hv hstarts).trans hfield.1)
  · refine Or.inr ⟨?_, hends⟩
    obtain ⟨front, hfront⟩ := hfinal
    obtain ⟨j, -, rfl, ⟨hbrace, -⟩, -⟩ := hends
    rw [← List.getLast?_append_of_ne_nil front hu, hfront, List.take_add_one, hbrace]
    exact List.getLast?_concat

/-- The pieces of a record, the last one included, stand between its cuts. -/
theorem recordPieces_eq_between (type : Text) :
    (recordPieces type).1 ++ [(recordPieces type).2] =
      type.between 0 ((recordCuts type).map fun i => (i, i)) := by
  have hcuts : (recordCuts type).map (fun i => (i, i)) = recordCutsFrom [] type := by
    rw [recordCutsFrom, recordCuts, List.range_eq_range']
    rfl
  have hbetween := between_recordCutsFrom staysOpen_nil type 0 (Nat.le_refl 0)
  rw [pieces_eq_piecesFrom, hcuts]
  exact (hbetween.trans (attach_nil (piecesFrom_ne_nil 0 0 type))).symm

theorem pairwise_recordCuts (type : Text) : (0 :: recordCuts type).Pairwise (· ≤ ·) := by
  refine List.pairwise_cons.2 ⟨fun i _ => Nat.zero_le i, ?_⟩
  exact (List.pairwise_lt_range.imp Nat.le_of_lt).filter _

/-- Trimming the pieces and leaving a blank rest out takes no words away. -/
theorem flatMap_words_splitRecord_eq {α : Type} (f : Text → List α) (type : Text) :
    ((splitRecord type).flatMap fun segment => (words segment).flatMap f) =
      ((recordPieces type).1 ++ [(recordPieces type).2]).flatMap fun piece =>
        (words piece).flatMap f := by
  rw [splitRecord_eq, List.flatMap_append, List.flatMap_append, List.flatMap_map]
  simp only [words_trim]
  congr 1
  split
  · next hblank =>
    rw [List.flatMap_singleton, hblank.words_eq]
    rfl
  · rw [List.flatMap_singleton, List.flatMap_singleton, words_trim]

/-- What the words of the segments give is what the words of the record give, if a word that
is cut gives what its parts give. -/
theorem flatMap_words_splitRecord {α : Type} {f : Text → List α} {type : Text}
    (hwords : ∀ word ∈ words type, Word.IsCuttable word)
    (h : ∀ i ∈ recordCuts type, ∀ u v, u ≠ [] → v ≠ [] → u <:+ type.take i → v <+: type.drop i →
      IsWord (u ++ v) → Word.IsCuttable (u ++ v) → f (u ++ v) = f u ++ f v) :
    ((splitRecord type).flatMap fun segment => (words segment).flatMap f) =
      (words type).flatMap f := by
  rw [flatMap_words_splitRecord_eq, recordPieces_eq_between,
    flatMap_between (pairwise_recordCuts type), List.drop_zero]
  intro i hi start hstart
  have hsplit : type.drop start = (type.take i).drop start ++ type.drop i := by
    have hlength : start ≤ (type.take i).length := by
      have hrange := List.mem_range.1 (List.mem_filter.1 hi).1
      rw [List.length_take]
      omega
    rw [← List.drop_append_of_le_length hlength, List.take_append_drop]
  rw [hsplit]
  apply flatMap_words_append
  intro u v hu hv hfinal hstarts hmem
  have hcuttable : Word.IsCuttable (u ++ v) := by
    -- The part from `start` on may begin inside a word, so its words are ends of words only.
    rw [← hsplit] at hmem
    obtain ⟨word, hword, hends⟩ := exists_suffix_of_mem_words hmem (type.take start)
    rw [List.take_append_drop] at hword
    exact (hwords word hword).of_suffix hends
  exact h i hi u v hu hv (hfinal.trans (List.drop_suffix start _)) hstarts
    (isWord_of_mem_words hmem) hcuttable

-- ═════════════════════════════════════════════════════════════════════════════
-- What segments show and link
-- ═════════════════════════════════════════════════════════════════════════════

theorem withoutBlanks_normalizeType (type : Text) :
    withoutBlanks (normalizeType type) = (words type).flatMap Word.dropQualifier := by
  rw [normalizeType, withoutBlanks_intercalate isBlankText_space, List.flatMap_def]
  apply withoutBlanks_eq_self
  intro c hc
  obtain ⟨word, hword, hc⟩ := List.mem_flatten.1 hc
  obtain ⟨original, horiginal, rfl⟩ := List.mem_map.1 hword
  exact (Word.isWord_dropQualifier (isWord_of_mem_words horiginal)).solid c hc

/-- The segments show what the record shows. -/
theorem withoutBlanks_splitRecord_normalizeType {type : Text}
    (hwords : ∀ word ∈ words type, Word.IsCuttable word) :
    ((splitRecord type).flatMap fun segment => withoutBlanks (normalizeType segment)) =
      withoutBlanks (normalizeType type) := by
  simp only [withoutBlanks_normalizeType]
  apply flatMap_words_splitRecord hwords
  intro i hi u v hu hv hfinal hstarts _ hcuttable
  have hcut := head?_or_getLast?_of_mem_recordCuts hi hu hv hfinal hstarts
  obtain ⟨hlast, hdot⟩ := hcuttable.not_reaches (hcut.imp_right And.left)
  rw [Word.dropQualifier_append hlast hdot, Word.dropQualifier_of_not_mem hdot]

/-- The segments carry the links of the record, if its closing brace ends a word. -/
theorem links_splitRecord {type : Text} (scope : Scope)
    (hwords : ∀ word ∈ words type, Word.IsCuttable word) (hends : type.RecordEndsWord) :
    ((splitRecord type).flatMap fun segment => (scope.typeDocument segment).links) =
      (scope.typeDocument type).links := by
  simp only [Scope.links_typeDocument]
  apply flatMap_words_splitRecord hwords
  intro i hi u v hu hv hfinal hstarts hword hcuttable
  rcases head?_or_getLast?_of_mem_recordCuts hi hu hv hfinal hstarts with hcomma | ⟨-, hrecord⟩
  · obtain ⟨rest, rfl⟩ := List.head?_eq_some_iff.1 hcomma
    obtain ⟨hlast, hdot⟩ := hcuttable.not_reaches (Or.inl hcomma)
    have hrest : '.' ∉ rest := fun hmem => hdot (List.mem_cons_of_mem _ hmem)
    rw [scope.wordLink_append_comma hlast hrest, scope.wordLink_of_comma hrest, List.append_nil]
  · -- A blank stands behind the brace, so no word goes on there.
    obtain ⟨c, v, rfl⟩ := List.exists_cons_of_ne_nil hv
    have hnext : type[i]? = some c := (head?_eq_getElem? hv hstarts).symm
    have hblank := hends i (List.getElem?_eq_some_iff.1 hnext).1 hrecord c hnext
    rw [hword.solid c (by simp)] at hblank
    exact absurd hblank Bool.false_ne_true

end PackageDocs
