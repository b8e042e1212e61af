import PackageDocs.Proofs.Text.Words
import PackageDocs.Signature.Word

/-!
# Qualifiers and words

What a word shows and what its qualifier is are read off one cut, at the last dot. Dropping a
qualifier turns a word into a word, so a type has as many words after normalization as
before, and each of them stands in the place of its original.

## Main definitions

- `Word.Cut`: the three ways a word is cut
- `Word.Opens`: the run of brackets at the start of a word

## Main results

- `Word.cut_cases`: every word is cut in one of the three ways
- `Word.isWord_dropQualifier`: a word without its qualifier is a word
- `Word.dropQualifier_append`: a word without its qualifier, part by part
- `Word.dropQualifier_cuts_behind_qualifier`: the parts of a word around its last dot
- `words_normalizeType`: the words of a normalized type
- `normalizeType_squash`: a type may be squashed before it is normalized
-/

namespace PackageDocs

open Text

namespace Word

theorem openers_append_body (word : Text) : openers word ++ body word = word :=
  List.takeWhile_append_dropWhile

-- ═════════════════════════════════════════════════════════════════════════════
-- The last dot
-- ═════════════════════════════════════════════════════════════════════════════

theorem cutLastDot_eq_none_iff {t : Text} : cutLastDot t = none ↔ '.' ∉ t := by
  induction t with
  | nil => simp [cutLastDot]
  | cons c t ih =>
    rw [cutLastDot, List.mem_cons, not_or, ← ih]
    cases cutLastDot t with
    | some cut => simp
    | none => by_cases hc : c = '.' <;> simp [hc, eq_comm]

/-- A cut at the last dot gives the text back, and what follows has no dot. -/
theorem eq_append_of_cutLastDot {t before after : Text}
    (h : cutLastDot t = some (before, after)) : t = before ++ '.' :: after ∧ '.' ∉ after := by
  induction t generalizing before with
  | nil => simp [cutLastDot] at h
  | cons c t ih =>
    unfold cutLastDot at h
    split at h
    · next before' after' hrest =>
      obtain ⟨rfl, rfl⟩ : c :: before' = before ∧ after' = after := by simpa using h
      obtain ⟨ht, hafter⟩ := ih hrest
      exact ⟨by rw [ht, List.cons_append], hafter⟩
    · next hrest =>
      split at h
      · next hc =>
        obtain ⟨rfl, rfl⟩ : [] = before ∧ t = after := by simpa using h
        exact ⟨by rw [hc, List.nil_append], cutLastDot_eq_none_iff.1 hrest⟩
      · simp at h

/-- The ways a word is cut: it has no dot behind its brackets, its last dot ends it, or there is
something behind the last dot, which is shown in place of what precedes it. -/
inductive Cut (word : Text) : Prop
  | undotted (hdot : '.' ∉ body word) (hqualifier : qualifier word = [])
      (hshown : dropQualifier word = word)
  | ended (hbody : body word = qualifier word ++ ['.']) (hshown : dropQualifier word = word)
  | qualified (rest : Text) (hrest : rest ≠ []) (hdot : '.' ∉ rest)
      (hbody : body word = qualifier word ++ '.' :: rest)
      (hshown : dropQualifier word = openers word ++ rest)

theorem cut_cases (word : Text) : Cut word := by
  cases hcut : cutLastDot (body word) with
  | none =>
    exact .undotted (cutLastDot_eq_none_iff.1 hcut) (by rw [qualifier, hcut])
      (by rw [dropQualifier, hcut])
  | some parts =>
    obtain ⟨before, after⟩ := parts
    obtain ⟨hbody, hafter⟩ := eq_append_of_cutLastDot hcut
    have hqualifier : qualifier word = before := by rw [qualifier, hcut]
    rw [← hqualifier] at hbody
    cases after with
    | nil => exact .ended hbody (by rw [dropQualifier, hcut])
    | cons c rest =>
      exact .qualified (c :: rest) (List.cons_ne_nil c rest) hafter hbody
        (by rw [dropQualifier, hcut])

/-- Either nothing is dropped, or the qualifier and the dot behind it. -/
theorem dropQualifier_cases (word : Text) :
    dropQualifier word = word ∨
      ∃ rest, rest ≠ [] ∧ '.' ∉ rest ∧ body word = qualifier word ++ '.' :: rest ∧
        dropQualifier word = openers word ++ rest := by
  cases cut_cases word with
  | undotted _ _ hshown => exact .inl hshown
  | ended _ hshown => exact .inl hshown
  | qualified rest hrest hdot hbody hshown => exact .inr ⟨rest, hrest, hdot, hbody, hshown⟩

theorem isWord_dropQualifier {word : Text} (hword : IsWord word) : IsWord (dropQualifier word) := by
  rcases dropQualifier_cases word with h | ⟨rest, hne, -, hbody, h⟩
  · rwa [h]
  · rw [h]
    refine ⟨by simp [hne], ?_⟩
    intro c hc
    apply hword.solid c
    rw [← openers_append_body word, hbody]
    rcases List.mem_append.1 hc with hc | hc <;> simp [hc]

-- ═════════════════════════════════════════════════════════════════════════════
-- Words in two parts
-- ═════════════════════════════════════════════════════════════════════════════

variable {u v : Text}

/-- The last dot stays the last if no dot follows. -/
theorem cutLastDot_append (u : Text) (hv : '.' ∉ v) :
    cutLastDot (u ++ v) = (cutLastDot u).map fun cut => (cut.1, cut.2 ++ v) := by
  induction u with
  | nil => exact cutLastDot_eq_none_iff.2 hv
  | cons c u ih =>
    rw [List.cons_append, cutLastDot, ih, cutLastDot]
    cases cutLastDot u with
    | some cut => rfl
    | none => by_cases hc : c = '.' <;> simp [hc]

theorem not_mem_body {word : Text} (h : '.' ∉ word) : '.' ∉ body word :=
  fun hmem => h ((List.dropWhile_sublist isOpener).subset hmem)

theorem dropQualifier_of_not_mem {word : Text} (h : '.' ∉ word) : dropQualifier word = word := by
  rw [dropQualifier, cutLastDot_eq_none_iff.2 (not_mem_body h)]

theorem qualifier_of_not_mem {word : Text} (h : '.' ∉ word) : qualifier word = [] := by
  rw [qualifier, cutLastDot_eq_none_iff.2 (not_mem_body h)]

/-- Behind a dot brackets do not open the word any more. -/
theorem body_append (hu : '.' ∈ u) (v : Text) : body (u ++ v) = body u ++ v := by
  have hne : body u ≠ [] := by
    rw [body, Ne, List.dropWhile_eq_nil_iff]
    exact fun hall => absurd (hall '.' hu) (by decide)
  rw [body, List.dropWhile_append, if_neg (by simpa [body] using hne)]
  rfl

theorem openers_append (hu : '.' ∈ u) (v : Text) : openers (u ++ v) = openers u := by
  have h := openers_append_body (u ++ v)
  rw [body_append hu, ← List.append_assoc, List.append_left_inj] at h
  exact List.append_cancel_right (h.trans (openers_append_body u).symm)

theorem qualifier_append (u : Text) (hv : '.' ∉ v) : qualifier (u ++ v) = qualifier u := by
  by_cases hu : '.' ∈ u
  · rw [qualifier, body_append hu, cutLastDot_append _ hv, qualifier]
    cases cutLastDot (body u) <;> rfl
  · rw [qualifier_of_not_mem hu, qualifier_of_not_mem (by simp [hu, hv])]

/-- A word without its qualifier, part by part. -/
theorem dropQualifier_append (hu : u.getLast? ≠ some '.') (hv : '.' ∉ v) :
    dropQualifier (u ++ v) = dropQualifier u ++ v := by
  by_cases hdot : '.' ∈ u
  · rw [dropQualifier, body_append hdot, cutLastDot_append _ hv, openers_append hdot, dropQualifier]
    cases hcut : cutLastDot (body u) with
    | none => rfl
    | some cut =>
      obtain ⟨before, after⟩ := cut
      cases after with
      | nil =>
        -- Then the dot would be the last character of the first part.
        have hbody := (eq_append_of_cutLastDot hcut).1
        have hword := openers_append_body u
        rw [hbody, ← List.append_assoc] at hword
        rw [← hword, List.getLast?_concat] at hu
        exact absurd rfl hu
      | cons c after => simp
  · rw [dropQualifier_of_not_mem hdot, dropQualifier_of_not_mem (by simp [hdot, hv])]

-- ═════════════════════════════════════════════════════════════════════════════
-- The cut of a word
-- ═════════════════════════════════════════════════════════════════════════════

/-- The brackets stand at the start of the word, and no longer run of brackets does. -/
structure Opens (brackets word : Text) : Prop where
  starts : brackets <+: word
  opening : ∀ c ∈ brackets, c ∈ ['(', '{', '[']
  longest : ∀ other, other <+: word → (∀ c ∈ other, c ∈ ['(', '{', '[']) →
    other.length ≤ brackets.length

variable {word : Text}

theorem isOpener_iff {c : Char} : isOpener c = true ↔ c ∈ ['(', '{', '['] := by
  simp [isOpener, or_assoc]

theorem opens_openers (word : Text) : Opens (openers word) word where
  starts := List.takeWhile_prefix isOpener
  opening := fun c hc => isOpener_iff.1 (List.mem_takeWhile_imp hc)
  longest := by
    rintro other ⟨rest, rfl⟩ hother
    have hrun : openers (other ++ rest) = other ++ openers rest :=
      List.takeWhile_append_of_pos fun c hc => isOpener_iff.2 (hother c hc)
    rw [hrun, List.length_append]
    omega

/-- A word is shown whole if there is no dot behind its brackets, or nothing behind the last
one. -/
theorem dropQualifier_eq_self_iff :
    dropQualifier word = word ↔ '.' ∉ body word ∨ (body word).getLast? = some '.' := by
  cases cut_cases word with
  | undotted hdot _ hshown => exact iff_of_true hshown (.inl hdot)
  | ended hbody hshown =>
    have hlast : (body word).getLast? = some '.' := by rw [hbody, List.getLast?_concat]
    exact iff_of_true hshown (.inr hlast)
  | qualified rest hrest hdot hbody hshown =>
    apply iff_of_false
    · -- The rest has no dot, unlike all that stands behind the brackets.
      intro heq
      have hsame : rest = body word :=
        List.append_cancel_left (hshown.symm.trans (heq.trans (openers_append_body word).symm))
      have hmem : '.' ∈ body word := by simp [hbody]
      exact hdot (hsame ▸ hmem)
    · rintro (hundotted | hlast)
      · exact hundotted (by simp [hbody])
      · obtain ⟨c, rest, rfl⟩ := List.exists_cons_of_ne_nil hrest
        rw [hbody, List.getLast?_append_cons, List.getLast?_cons_cons] at hlast
        exact hdot (List.mem_of_getLast? hlast)

/-- Cut at every dot, a word shows its last component behind its brackets, and the components
before that make up its qualifier. It is shown whole if there is one component only, or if the
last is empty. -/
theorem exists_components (word : Text) :
    ∃ earlier last, pieces (· == '.') (body word) = earlier ++ [last] ∧
      qualifier word = ['.'].intercalate earlier ∧
      dropQualifier word = if earlier = [] ∨ last = [] then word else openers word ++ last := by
  have hqualifier := (intercalate_pieces '.' (qualifier word)).symm
  cases cut_cases word with
  | undotted hdot hempty hshown =>
    exact ⟨[], body word, pieces_of_not_mem hdot, hempty, by rw [if_pos (.inl rfl), hshown]⟩
  | ended hbody hshown =>
    refine ⟨pieces (· == '.') (qualifier word), [], ?_, hqualifier, ?_⟩
    · rw [hbody, pieces_append_cons (by decide), pieces_of_not_mem List.not_mem_nil]
    · rw [if_pos (.inr rfl), hshown]
  | qualified rest hrest hdot hbody hshown =>
    refine ⟨pieces (· == '.') (qualifier word), rest, ?_, hqualifier, ?_⟩
    · rw [hbody, pieces_append_cons (by decide), pieces_of_not_mem hdot]
    · rw [if_neg (not_or.2 ⟨pieces_ne_nil _ _, hrest⟩), hshown]

/-- **A word is cut at its last dot.** Behind the longest run of brackets that opens a word stand
its qualifier, the last dot and the part that is shown behind the brackets. The word is shown
whole exactly if there is no dot behind the brackets or the last one ends the word. In every case
the qualifier is made of all components between dots but the last, and the last is the one that
may be shown. -/
theorem dropQualifier_cuts_behind_qualifier (word : Text) :
    Opens (openers word) word ∧
    openers word ++ body word = word ∧
    (dropQualifier word ≠ word → ∃ rest, rest ≠ [] ∧ '.' ∉ rest ∧
      dropQualifier word = openers word ++ rest ∧
      word = openers word ++ qualifier word ++ ['.'] ++ rest) ∧
    (dropQualifier word = word ↔ '.' ∉ body word ∨ (body word).getLast? = some '.') ∧
    ∃ earlier last, pieces (· == '.') (body word) = earlier ++ [last] ∧
      qualifier word = ['.'].intercalate earlier ∧
      dropQualifier word = if earlier = [] ∨ last = [] then word else openers word ++ last := by
  refine ⟨opens_openers word, openers_append_body word, ?_, dropQualifier_eq_self_iff,
    exists_components word⟩
  intro hne
  rcases dropQualifier_cases word with h | ⟨rest, hrest, hdot, hbody, hshown⟩
  · exact absurd h hne
  · refine ⟨rest, hrest, hdot, hshown, ?_⟩
    calc word = openers word ++ body word := (openers_append_body word).symm
      _ = openers word ++ qualifier word ++ ['.'] ++ rest := by rw [hbody]; simp

/-- Brackets in front of a path, and one more behind a dot of it. -/
theorem dropQualifier_cuts_behind_qualifier_of_path :
    dropQualifier "([Json.Decode.(a.Decoder)".toList ≠ "([Json.Decode.(a.Decoder)".toList ∧
      ∃ rest, rest ≠ [] ∧ '.' ∉ rest ∧
        dropQualifier "([Json.Decode.(a.Decoder)".toList = "([".toList ++ rest ∧
        "([Json.Decode.(a.Decoder)".toList =
          "([".toList ++ "Json.Decode.(a".toList ++ ['.'] ++ rest := by
  have hpath : dropQualifier "([Json.Decode.(a.Decoder)".toList ≠
      "([Json.Decode.(a.Decoder)".toList := by decide +kernel
  obtain ⟨-, -, hcut, -⟩ := dropQualifier_cuts_behind_qualifier "([Json.Decode.(a.Decoder)".toList
  exact ⟨hpath, hcut hpath⟩

end Word

/-- The words of a normalized type are those of the type without their qualifiers. -/
theorem words_normalizeType (type : Text) :
    words (normalizeType type) = (words type).map Word.dropQualifier := by
  apply words_intercalate
  intro w hw
  obtain ⟨v, hv, rfl⟩ := List.mem_map.1 hw
  exact Word.isWord_dropQualifier (isWord_of_mem_words hv)

theorem normalizeType_squash (type : Text) :
    normalizeType (squash type) = normalizeType type := by
  rw [normalizeType, words_squash, normalizeType]

end PackageDocs
