import Mathlib.Data.List.DropRight
import PackageDocs.Text.Blank

/-!
# Words of a text

Words are cut at blanks. A run of blanks therefore separates the words before it from
the words behind it, however long it is, and a text is known up to its blanks when its
words are known.

## Main definitions

- `Text.IsWord`: a non-empty text without blanks
- `Text.IsGap`: a non-empty text of blanks

## Main results

- `Text.words_append_gap`: a gap separates words
- `Text.pieces_intercalate`, `Text.intercalate_pieces`: parts written with separators read back,
  and the pieces between separators give the text back
- `Text.words_intercalate`: words written with single spaces read back
- `Text.squash_eq_squash_iff`: two texts squash alike if and only if they have the same words
- `Text.flatMap_words_append`: what words give, on both sides of a cut
-/

namespace PackageDocs

namespace Text

theorem pieces_append_cons {cut : Char → Bool} {c : Char} (hc : cut c = true) (s t : Text) :
    pieces cut (s ++ c :: t) = pieces cut s ++ pieces cut t := by
  induction s with
  | nil => simp [pieces, hc]
  | cons a s ih =>
    by_cases ha : cut a = true
    · simp [pieces, ha, ih]
    · obtain ⟨p, ps, hp⟩ := List.exists_cons_of_ne_nil (pieces_ne_nil cut s)
      rw [hp] at ih
      simp [pieces, ha, ih, hp]

theorem pieces_eq_singleton {cut : Char → Bool} {t : Text} (h : ∀ c ∈ t, cut c = false) :
    pieces cut t = [t] := by
  induction t with
  | nil => rfl
  | cons c t ih =>
    have hc : cut c = false := h c List.mem_cons_self
    have ht : pieces cut t = [t] := ih fun a ha => h a (List.mem_cons_of_mem _ ha)
    simp [pieces, hc, ht]

theorem pieces_of_not_mem {sep : Char} {t : Text} (h : sep ∉ t) : pieces (· == sep) t = [t] :=
  pieces_eq_singleton fun _ hc => beq_eq_false_iff_ne.2 (ne_of_mem_of_not_mem hc h)

theorem cut_eq_false_of_mem_pieces {cut : Char → Bool} {t p : Text} (hp : p ∈ pieces cut t) :
    ∀ c ∈ p, cut c = false := by
  induction t generalizing p with
  | nil =>
    rw [pieces, List.mem_singleton] at hp
    simp [hp]
  | cons a t ih =>
    unfold pieces at hp
    split at hp
    · rcases List.mem_cons.1 hp with rfl | hp
      · simp
      · exact ih hp
    · next ha =>
      obtain ⟨q, qs, hq⟩ := List.exists_cons_of_ne_nil (pieces_ne_nil cut t)
      rw [hq] at hp
      rcases List.mem_cons.1 hp with rfl | hp
      · intro c hc
        rcases List.mem_cons.1 hc with rfl | hc
        · simpa using ha
        · exact ih (hq ▸ List.mem_cons_self) c hc
      · exact ih (hq ▸ List.mem_cons_of_mem _ hp)

theorem mem_of_mem_pieces {cut : Char → Bool} {t p : Text} (hp : p ∈ pieces cut t) {c : Char}
    (hc : c ∈ p) : c ∈ t := by
  induction t generalizing p with
  | nil =>
    rw [pieces, List.mem_singleton] at hp
    rwa [hp] at hc
  | cons a t ih =>
    unfold pieces at hp
    split at hp
    · rcases List.mem_cons.1 hp with rfl | hp
      · exact absurd hc List.not_mem_nil
      · exact List.mem_cons_of_mem a (ih hp hc)
    · obtain ⟨q, qs, hq⟩ := List.exists_cons_of_ne_nil (pieces_ne_nil cut t)
      rw [hq] at hp
      rcases List.mem_cons.1 hp with rfl | hp
      · rcases List.mem_cons.1 hc with rfl | hc
        · exact List.mem_cons_self
        · exact List.mem_cons_of_mem a (ih (hq ▸ List.mem_cons_self) hc)
      · exact List.mem_cons_of_mem a (ih (hq ▸ List.mem_cons_of_mem q hp) hc)

/-- A non-empty text without blanks. -/
structure IsWord (w : Text) : Prop where
  ne_nil : w ≠ []
  solid : ∀ c ∈ w, isBlank c = false

/-- A non-empty run of blanks. -/
structure IsGap (g : Text) : Prop where
  ne_nil : g ≠ []
  blank : ∀ c ∈ g, isBlank c = true

theorem isWord_of_mem_words {t w : Text} (hw : w ∈ words t) : IsWord w := by
  obtain ⟨hp, hne⟩ := List.mem_filter.1 hw
  exact ⟨by simpa using hne, cut_eq_false_of_mem_pieces hp⟩

theorem IsWord.words_eq {w : Text} (hw : IsWord w) : words w = [w] := by
  rw [words, pieces_eq_singleton hw.solid]
  simp [hw.ne_nil]

theorem isWord_singleton {c : Char} (hc : isBlank c = false) : IsWord [c] := by
  refine ⟨by simp, ?_⟩
  intro d hd
  rwa [List.mem_singleton.1 hd]

theorem IsWord.cons {c : Char} {w : Text} (hw : IsWord w) (hc : isBlank c = false) :
    IsWord (c :: w) := by
  refine ⟨by simp, ?_⟩
  intro d hd
  rcases List.mem_cons.1 hd with rfl | hd
  · exact hc
  · exact hw.solid d hd

theorem IsWord.append {v w : Text} (hv : IsWord v) (hw : IsWord w) : IsWord (v ++ w) := by
  refine ⟨List.append_ne_nil_of_left_ne_nil hv.ne_nil w, ?_⟩
  intro c hc
  exact (List.mem_append.1 hc).elim (hv.solid c) (hw.solid c)

theorem IsGap.cons {c : Char} {g : Text} (hg : IsGap g) (hc : isBlank c = true) :
    IsGap (c :: g) := by
  refine ⟨by simp, ?_⟩
  intro d hd
  rcases List.mem_cons.1 hd with rfl | hd
  · exact hc
  · exact hg.blank d hd

theorem isGap_space : IsGap [' '] := by
  refine ⟨by simp, ?_⟩
  intro c hc
  rw [List.mem_singleton.1 hc]
  decide

/-- The start of a line, a line feed and any number of spaces, is a gap. -/
theorem isGap_newline (n : Nat) : IsGap ('\n' :: List.replicate n ' ') := by
  refine ⟨by simp, ?_⟩
  intro c hc
  rcases List.mem_cons.1 hc with rfl | hc
  · decide
  · rw [List.eq_of_mem_replicate hc]
    decide

/-- **Words split at a blank.** What is said below about words follows from this. -/
theorem words_append_cons {c : Char} (hc : isBlank c = true) (s t : Text) :
    words (s ++ c :: t) = words s ++ words t := by
  rw [words, pieces_append_cons hc, List.filter_append]
  rfl

theorem words_cons {c : Char} (hc : isBlank c = true) (t : Text) : words (c :: t) = words t :=
  words_append_cons hc [] t

theorem words_append_of_blank {g : Text} (hg : ∀ c ∈ g, isBlank c = true) (t : Text) :
    words (g ++ t) = words t := by
  induction g with
  | nil => rfl
  | cons c g ih =>
    rw [List.cons_append, words_cons (hg c List.mem_cons_self)]
    exact ih fun a ha => hg a (List.mem_cons_of_mem _ ha)

/-- A gap separates the words before it from those behind it. -/
theorem words_append_gap {g : Text} (hg : IsGap g) (s t : Text) :
    words (s ++ (g ++ t)) = words s ++ words t := by
  obtain ⟨c, g, rfl⟩ := List.exists_cons_of_ne_nil hg.ne_nil
  rw [List.cons_append, words_append_cons (hg.blank c List.mem_cons_self),
    words_append_of_blank fun a ha => hg.blank a (List.mem_cons_of_mem _ ha)]

/-- What is put together starts with its first part; each later part follows a separator. -/
theorem intercalate_cons_eq_append_flatMap {α : Type} (sep first : List α) (rest : List (List α)) :
    sep.intercalate (first :: rest) = first ++ rest.flatMap (sep ++ ·) := by
  induction rest generalizing first with
  | nil => simp
  | cons second rest ih =>
    rw [List.intercalate_cons_cons, ih, List.flatMap_cons, List.append_assoc, List.append_assoc]

/-- What is put together has no characters but those of its parts and of the separator. -/
theorem mem_or_exists_mem_of_mem_intercalate {sep : Text} {parts : List Text} {c : Char}
    (hc : c ∈ sep.intercalate parts) : c ∈ sep ∨ ∃ part ∈ parts, c ∈ part := by
  cases parts with
  | nil => exact absurd hc List.not_mem_nil
  | cons first rest =>
    rw [intercalate_cons_eq_append_flatMap, List.mem_append, List.mem_flatMap] at hc
    rcases hc with hc | ⟨part, hpart, hc⟩
    · exact Or.inr ⟨first, List.mem_cons_self, hc⟩
    · rcases List.mem_append.1 hc with hc | hc
      · exact Or.inl hc
      · exact Or.inr ⟨part, List.mem_cons_of_mem first hpart, hc⟩

/-- Parts written with separators read back. -/
theorem pieces_intercalate {cut : Char → Bool} {sep : Char} (hsep : cut sep = true)
    {parts : List Text} (hne : parts ≠ []) (h : ∀ part ∈ parts, ∀ c ∈ part, cut c = false) :
    pieces cut ([sep].intercalate parts) = parts := by
  induction parts with
  | nil => exact absurd rfl hne
  | cons part parts ih =>
    have hpart : pieces cut part = [part] := pieces_eq_singleton (h part List.mem_cons_self)
    cases parts with
    | nil => rw [List.intercalate_singleton, hpart]
    | cons other parts =>
      have hrest := ih (by simp) fun p hp => h p (List.mem_cons_of_mem part hp)
      rw [List.intercalate_cons_cons, List.append_assoc, List.singleton_append,
        pieces_append_cons hsep, hpart, hrest]
      rfl

/-- The pieces between separators give the text back. -/
theorem intercalate_pieces (sep : Char) (t : Text) :
    [sep].intercalate (pieces (· == sep) t) = t := by
  induction t with
  | nil => rfl
  | cons c t ih =>
    obtain ⟨p, ps, hp⟩ := List.exists_cons_of_ne_nil (pieces_ne_nil (· == sep) t)
    rw [hp] at ih
    by_cases hc : c = sep
    · rw [hc, pieces, if_pos (by simp), hp, List.intercalate_cons_cons, ih]
      rfl
    · rw [pieces, if_neg (by simpa using hc), hp]
      -- The character goes in front of the first piece, whatever follows that.
      cases ps with
      | nil => rw [List.intercalate_singleton, ← ih, List.intercalate_singleton]
      | cons q qs =>
        rw [List.intercalate_cons_cons, ← ih, List.intercalate_cons_cons]
        rfl

/-- Words written with single spaces read back. -/
theorem words_intercalate {ws : List Text} (h : ∀ w ∈ ws, IsWord w) :
    words ([' '].intercalate ws) = ws := by
  induction ws with
  | nil => rfl
  | cons w ws ih =>
    have hw : words w = [w] := (h w List.mem_cons_self).words_eq
    have hws := ih fun v hv => h v (List.mem_cons_of_mem _ hv)
    cases ws with
    | nil => rw [List.intercalate_singleton, hw]
    | cons v vs =>
      rw [List.intercalate_cons_cons, List.append_assoc, words_append_gap isGap_space, hw, hws]
      rfl

theorem words_squash (t : Text) : words (squash t) = words t :=
  words_intercalate fun _ hw => isWord_of_mem_words hw

/-- Squashing brings in spaces only. -/
theorem eq_space_or_mem_of_mem_squash {t : Text} {c : Char} (hc : c ∈ squash t) :
    c = ' ' ∨ c ∈ t := by
  rcases mem_or_exists_mem_of_mem_intercalate hc with hc | ⟨w, hw, hcw⟩
  · exact Or.inl (List.mem_singleton.1 hc)
  · exact Or.inr (mem_of_mem_pieces (List.mem_filter.1 hw).1 hcw)

theorem squash_eq_squash_iff {s t : Text} : squash s = squash t ↔ words s = words t := by
  constructor
  · intro h
    rw [← words_squash s, h, words_squash]
  · intro h
    rw [squash, h, squash]

-- ═════════════════════════════════════════════════════════════════════════════
-- Words on both sides of a cut
-- ═════════════════════════════════════════════════════════════════════════════

theorem words_nil : words [] = [] := rfl

theorem words_append_of_getLast? {s : Text} (h : ∀ c ∈ s.getLast?, isBlank c = true) (t : Text) :
    words (s ++ t) = words s ++ words t := by
  rcases List.eq_nil_or_concat' s with rfl | ⟨front, c, rfl⟩
  · rfl
  · have hc : isBlank c = true := h c (by simp)
    rw [List.append_assoc, List.singleton_append, words_append_cons hc, words_append_cons hc,
      words_nil, List.append_nil]

theorem words_append_of_head? (s : Text) {t : Text} (h : ∀ c ∈ t.head?, isBlank c = true) :
    words (s ++ t) = words s ++ words t := by
  cases t with
  | nil => rw [List.append_nil, words_nil, List.append_nil]
  | cons c t =>
    have hc : isBlank c = true := h c rfl
    rw [words_append_cons hc, words_cons hc]

/-- Only the words that touch a cut are changed by it. -/
theorem exists_words_append (s t : Text) :
    ∃ front u v later, u <:+ s ∧ v <+: t ∧ (∀ c ∈ u ++ v, isBlank c = false) ∧
      words s = front ++ words u ∧ words t = words v ++ later ∧
      words (s ++ t) = front ++ words (u ++ v) ++ later := by
  let solid : Char → Bool := fun c => !isBlank c
  have hfront : ∀ c ∈ (s.rdropWhile solid).getLast?, isBlank c = true := by
    intro c hc
    obtain ⟨hne, hlast⟩ := List.mem_getLast?_eq_getLast hc
    have hnot := List.rdropWhile_last_not solid s hne
    rw [← hlast] at hnot
    simpa [solid] using hnot
  have hlater : ∀ c ∈ (t.dropWhile solid).head?, isBlank c = true := by
    intro c hc
    have hnot := List.head?_dropWhile_not solid t
    rw [Option.mem_def.1 hc] at hnot
    simpa [solid] using hnot
  refine ⟨words (s.rdropWhile solid), s.rtakeWhile solid, t.takeWhile solid,
    words (t.dropWhile solid), List.rtakeWhile_suffix solid s, List.takeWhile_prefix solid, ?_,
    ?_, ?_, ?_⟩
  · intro c hc
    rcases List.mem_append.1 hc with hc | hc
    · simpa [solid] using List.mem_rtakeWhile_imp hc
    · simpa [solid] using List.mem_takeWhile_imp hc
  · rw [← words_append_of_getLast? hfront, List.rdropWhile_append_rtakeWhile]
  · rw [← words_append_of_head? _ hlater, List.takeWhile_append_dropWhile]
  · rw [← words_append_of_getLast? hfront, ← words_append_of_head? _ hlater, ← List.append_assoc,
      List.rdropWhile_append_rtakeWhile, List.append_assoc, List.takeWhile_append_dropWhile]

/-- The words of a text end words of the text with another one in front. -/
theorem exists_suffix_of_mem_words {t w : Text} (hw : w ∈ words t) (s : Text) :
    ∃ word ∈ words (s ++ t), w <:+ word := by
  obtain ⟨front, u, v, later, -, -, hsolid, -, ht, hwords⟩ := exists_words_append s t
  rw [hwords]
  rw [ht] at hw
  rcases List.mem_append.1 hw with hw | hw
  · have hv : IsWord v := by
      refine ⟨?_, fun c hc => hsolid c (List.mem_append_right u hc)⟩
      rintro rfl
      exact absurd hw List.not_mem_nil
    have huv : IsWord (u ++ v) := ⟨List.append_ne_nil_of_right_ne_nil u hv.ne_nil, hsolid⟩
    rw [hv.words_eq, List.mem_singleton] at hw
    exact ⟨u ++ v, by simp [huv.words_eq], hw ▸ List.suffix_append u v⟩
  · exact ⟨w, List.mem_append_right _ hw, List.suffix_rfl⟩

/-- What the words of two texts give is what those of the whole give, if a word that the cut
goes through gives what its parts give. -/
theorem flatMap_words_append {α : Type} {f : Text → List α} {s t : Text}
    (h : ∀ u v, u ≠ [] → v ≠ [] → u <:+ s → v <+: t → u ++ v ∈ words (s ++ t) →
      f (u ++ v) = f u ++ f v) :
    (words (s ++ t)).flatMap f = (words s).flatMap f ++ (words t).flatMap f := by
  obtain ⟨front, u, v, later, hu, hv, hsolid, hs, ht, hwords⟩ := exists_words_append s t
  have hjoin : (words (u ++ v)).flatMap f = (words u).flatMap f ++ (words v).flatMap f := by
    by_cases hune : u = []
    · rw [hune]
      rfl
    · by_cases hvne : v = []
      · rw [hvne, List.append_nil, words_nil, List.flatMap_nil, List.append_nil]
      · obtain ⟨husolid, hvsolid⟩ := List.forall_mem_append.1 hsolid
        have huword : IsWord u := ⟨hune, husolid⟩
        have hvword : IsWord v := ⟨hvne, hvsolid⟩
        have hmem : u ++ v ∈ words (s ++ t) := by
          rw [hwords, (huword.append hvword).words_eq]
          simp
        rw [(huword.append hvword).words_eq, huword.words_eq, hvword.words_eq]
        simpa using h u v hune hvne hu hv hmem
  rw [hwords, hs, ht]
  simp only [List.flatMap_append, hjoin, List.append_assoc]

end Text

end PackageDocs
