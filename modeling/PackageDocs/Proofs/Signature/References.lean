import PackageDocs.Proofs.Signature.Passes
import PackageDocs.Proofs.Signature.Placement

/-!
# References to documented names

A word of a type refers to a documented name when its qualifier allows it and the
identifier behind its opening brackets, read as far as it goes, is that name. Exactly
these words carry a link, and the link stands on the identifier alone.

## Main definitions

- `Scope.WordLinks`: the links that words laid out with single spaces call for
- `Scope.StandsAlone`: a name that touches no other character of an identifier

## Main results

- `Scope.typeDocument_links`: the links of a type, their places and their texts
-/

namespace PackageDocs

open Text

namespace Scope

variable {scope : Scope} {word name : Text}

theorem text_wordGlyphs (scope : Scope) (word : Text) :
    (scope.wordGlyphs word).flatMap Glyph.text = Word.dropQualifier word := by
  have chars : ∀ t : Text, (t.map Glyph.char).flatMap Glyph.text = t := by
    intro t
    rw [List.flatMap_map]
    exact List.flatMap_singleton' t
  unfold wordGlyphs
  split
  · next before name after h =>
    obtain ⟨hrefers, rfl, rfl⟩ := reference?_eq_some_iff.1 h
    rw [List.flatMap_append, List.flatMap_cons, chars, chars]
    exact hrefers.openers_append
  · exact chars _

/-- The glyphs of the first word stand in front, and a space before those of each other. -/
theorem glyphs_of_words_eq_cons {type first : Text} {rest : List Text}
    (h : words type = first :: rest) :
    scope.glyphs type =
      scope.wordGlyphs first ++ rest.flatMap fun word => .char ' ' :: scope.wordGlyphs word := by
  rw [glyphs, h, List.map_cons, intercalate_cons_eq_append_flatMap, List.flatMap_map]
  rfl

theorem text_glyphs (scope : Scope) (type : Text) :
    (scope.glyphs type).flatMap Glyph.text = normalizeType type := by
  rw [normalizeType]
  cases h : words type with
  | nil => rw [glyphs, h]; rfl
  | cons first rest =>
    rw [glyphs_of_words_eq_cons h, List.map_cons, intercalate_cons_eq_append_flatMap,
      List.flatMap_append, text_wordGlyphs, List.flatMap_assoc, List.flatMap_map]
    congr 2
    funext word
    exact congrArg (' ' :: ·) (text_wordGlyphs scope word)

theorem refers_of_name_mem_wordGlyphs (h : Glyph.name name ∈ scope.wordGlyphs word) :
    scope.Refers word name := by
  unfold wordGlyphs at h
  split at h
  · next before found after href =>
    obtain rfl : found = name := by simpa [eq_comm] using h
    exact (reference?_eq_some_iff.1 href).1
  · simp at h

theorem refers_of_name_mem_glyphs {type : Text} (h : Glyph.name name ∈ scope.glyphs type) :
    ∃ word ∈ words type, scope.Refers word name := by
  cases hwords : words type with
  | nil =>
    rw [glyphs, hwords] at h
    simp at h
  | cons first rest =>
    rw [glyphs_of_words_eq_cons hwords] at h
    rcases List.mem_append.1 h with h | h
    · exact ⟨first, by simp, refers_of_name_mem_wordGlyphs h⟩
    · obtain ⟨word, hword, hname⟩ := List.mem_flatMap.1 h
      have hname : Glyph.name name ∈ scope.wordGlyphs word := by simpa using hname
      exact ⟨word, by simp [hword], refers_of_name_mem_wordGlyphs hname⟩

/-- The links of words that are laid out from `offset` on, without qualifiers and with
single spaces: one for each word that refers to a name, on that name. -/
inductive WordLinks (scope : Scope) : Nat → List Text → List (Nat × Token) → Prop
  | nil {offset : Nat} : WordLinks scope offset [] []
  | link {offset : Nat} {word name : Text} {words : List Text} {links : List (Nat × Token)}
      (h : scope.Refers word name)
      (rest : WordLinks scope (offset + (Word.dropQualifier word).length + 1) words links) :
      WordLinks scope offset (word :: words)
        ((offset + (Word.openers (Word.dropQualifier word)).length,
          { text := name, role := .link, target := some ('#' :: name), bold := false }) :: links)
  | skip {offset : Nat} {word : Text} {words : List Text} {links : List (Nat × Token)}
      (h : ∀ name, ¬ scope.Refers word name)
      (rest : WordLinks scope (offset + (Word.dropQualifier word).length + 1) words links) :
      WordLinks scope offset (word :: words) links

/-- A word that refers to a name places it behind its opening brackets. -/
theorem placedNames_of_refers (h : scope.Refers word name) (offset : Nat) (gs : List Glyph) :
    Document.placedNames offset (scope.wordGlyphs word ++ gs) =
      (offset + (Word.openers (Word.dropQualifier word)).length, name) ::
        Document.placedNames (offset + (Word.dropQualifier word).length) gs := by
  have hlength : (Word.openers (Word.dropQualifier word)).length + name.length +
      ((Word.body (Word.dropQualifier word)).drop name.length).length =
        (Word.dropQualifier word).length := by
    rw [Nat.add_assoc, ← List.length_append, ← List.length_append, h.openers_append]
  rw [wordGlyphs, reference?_eq_some_iff.2 ⟨h, rfl, rfl⟩]
  simp only [List.append_assoc, List.cons_append]
  rw [Document.placedNames_chars_append, Document.placedNames, Document.placedNames_chars_append]
  congr 2
  omega

theorem placedNames_of_not_refers (h : ∀ name, ¬ scope.Refers word name) (offset : Nat)
    (gs : List Glyph) :
    Document.placedNames offset (scope.wordGlyphs word ++ gs) =
      Document.placedNames (offset + (Word.dropQualifier word).length) gs := by
  rw [wordGlyphs, reference?_eq_none h]
  exact Document.placedNames_chars_append _ _ _

/-- The names placed among the glyphs of words are the links of the words. -/
theorem wordLinks_placedNames (offset : Nat) (first : Text) (rest : List Text) :
    scope.WordLinks offset (first :: rest)
      ((Document.placedNames offset (scope.wordGlyphs first ++
        rest.flatMap fun word => .char ' ' :: scope.wordGlyphs word)).map
          fun place => (place.1, .reference place.2)) := by
  induction rest generalizing offset first with
  | nil =>
    by_cases h : ∃ name, scope.Refers first name
    · obtain ⟨name, h⟩ := h
      rw [placedNames_of_refers h]
      exact .link h .nil
    · rw [not_exists] at h
      rw [placedNames_of_not_refers h]
      exact .skip h .nil
  | cons second rest ih =>
    -- The space in front of the second word moves it one place on.
    have hrest := ih (offset + (Word.dropQualifier first).length + 1) second
    by_cases h : ∃ name, scope.Refers first name
    · obtain ⟨name, h⟩ := h
      rw [placedNames_of_refers h]
      exact .link h hrest
    · rw [not_exists] at h
      rw [placedNames_of_not_refers h]
      exact .skip h hrest

theorem wordLinks_typeDocument (scope : Scope) (type : Text) :
    scope.WordLinks 0 (words type) ((scope.typeDocument type).placedWith .link 0) := by
  rw [typeDocument_eq_ofGlyphs, Document.placedWith_link_ofGlyphs]
  cases h : words type with
  | nil =>
    rw [glyphs, h]
    exact .nil
  | cons first rest =>
    rw [glyphs_of_words_eq_cons h]
    exact wordLinks_placedNames 0 first rest

/-- The text stands at the offset, and no character of an identifier touches it. -/
def StandsAlone (name : Text) (offset : Nat) (t : Text) : Prop :=
  ∃ before after, t = before ++ (name ++ after) ∧ before.length = offset ∧
    (∀ c ∈ before.getLast?, isNameChar c = false) ∧ ∀ c ∈ after.head?, isNameChar c = false

/-- What follows a text does not touch what stands in it, unless it touches the text. -/
theorem StandsAlone.append {offset : Nat} {t : Text} (h : StandsAlone name offset t) {u : Text}
    (hu : ∀ c ∈ u.head?, isNameChar c = false) : StandsAlone name offset (t ++ u) := by
  obtain ⟨before, after, rfl, hlength, hbefore, hafter⟩ := h
  refine ⟨before, after ++ u, by simp, hlength, hbefore, ?_⟩
  cases after with
  | nil => exact hu
  | cons c after => exact hafter

/-- What stands in a text stands further on behind another one that ends in a space. -/
theorem StandsAlone.space_append {offset : Nat} {t : Text} (h : StandsAlone name offset t)
    (u : Text) : StandsAlone name (u.length + 1 + offset) (u ++ ' ' :: t) := by
  obtain ⟨before, after, rfl, rfl, hbefore, hafter⟩ := h
  refine ⟨u ++ ' ' :: before, after, by simp, ?_, ?_, hafter⟩
  · rw [List.length_append, List.length_cons]
    omega
  · intro c hc
    cases before with
    | nil =>
      obtain rfl : ' ' = c := by simpa using hc
      decide
    | cons d before =>
      apply hbefore c
      simpa [List.getLast?_append, List.getLast?_cons_cons] using hc

theorem Refers.standsAlone (h : scope.Refers word name) :
    StandsAlone name (Word.openers (Word.dropQualifier word)).length
      (Word.dropQualifier word) := by
  refine ⟨_, _, h.openers_append.symm, rfl, ?_, h.isNameChar_head?⟩
  intro c hc
  exact isNameChar_of_mem_openers (List.mem_of_getLast? hc)

/-- Every link of words stands alone in the words laid out. -/
theorem WordLinks.standsAlone {offset : Nat} {ws : List Text} {links : List (Nat × Token)}
    (h : scope.WordLinks offset ws links) {place : Nat} {token : Token}
    (hmem : (place, token) ∈ links) :
    ∃ k, place = offset + k ∧
      StandsAlone token.text k ([' '].intercalate (ws.map Word.dropQualifier)) := by
  -- What is said of the words behind the first, said of all words.
  have further : ∀ {offset : Nat} {word : Text} {ws : List Text},
      ws ≠ [] →
      (∃ k, place = offset + (Word.dropQualifier word).length + 1 + k ∧
        StandsAlone token.text k ([' '].intercalate (ws.map Word.dropQualifier))) →
      ∃ k, place = offset + k ∧
        StandsAlone token.text k ([' '].intercalate ((word :: ws).map Word.dropQualifier)) := by
    rintro offset word ws hne ⟨k, hplace, hk⟩
    refine ⟨(Word.dropQualifier word).length + 1 + k, by omega, ?_⟩
    rw [List.map_cons, List.intercalate_cons_of_ne_nil (by simpa using hne), List.append_assoc]
    exact hk.space_append _
  induction h with
  | nil => simp at hmem
  | @link offset word name ws links hrefers hrest ih =>
    rcases List.mem_cons.1 hmem with hmem | hmem
    · obtain ⟨rfl, rfl⟩ := Prod.mk.inj hmem
      refine ⟨_, rfl, ?_⟩
      rw [List.map_cons, intercalate_cons_eq_append_flatMap]
      apply hrefers.standsAlone.append
      intro c hc
      cases ws with
      | nil => simp at hc
      | cons v ws =>
        obtain rfl : ' ' = c := by simpa using hc
        decide
    · refine further ?_ (ih hmem)
      rintro rfl
      cases hrest
      simp at hmem
  | @skip offset word ws links hnot hrest ih =>
    refine further ?_ (ih hmem)
    rintro rfl
    cases hrest
    simp at hmem

/-- The link that the word carries, if it refers to a name. -/
def wordLink (scope : Scope) (word : Text) : Document :=
  match scope.reference? word with
  | some (_, name, _) => [.reference name]
  | none => []

/-- Without their places, the links of words are the links that the words carry. -/
theorem WordLinks.map_snd {offset : Nat} {ws : List Text} {links : List (Nat × Token)}
    (h : scope.WordLinks offset ws links) : links.map Prod.snd = ws.flatMap scope.wordLink := by
  induction h with
  | nil => rfl
  | @link offset word name ws links hrefers _ ih =>
    rw [List.map_cons, List.flatMap_cons, ih, wordLink,
      reference?_eq_some_iff.2 ⟨hrefers, rfl, rfl⟩]
    rfl
  | @skip offset word ws links hnot _ ih =>
    rw [List.flatMap_cons, ih, wordLink, reference?_eq_none hnot]
    rfl

/-- The places of the links of words are the offsets that are counted on the words. -/
theorem WordLinks.map_fst {offset : Nat} {ws : List Text} {links : List (Nat × Token)}
    (h : scope.WordLinks offset ws links) : links.map Prod.fst = scope.offsetsFrom offset ws := by
  induction h with
  | nil => rfl
  | @link offset word name ws links hrefers _ ih =>
    rw [List.map_cons, ih, offsetsFrom, reference?_eq_some_iff.2 ⟨hrefers, rfl, rfl⟩]
  | @skip offset word ws links hnot _ ih =>
    rw [ih, offsetsFrom, reference?_eq_none hnot]

/-- The links of a type are those that its words carry, in order. -/
theorem links_typeDocument (scope : Scope) (type : Text) :
    (scope.typeDocument type).links = (words type).flatMap scope.wordLink := by
  rw [← Document.map_snd_placedWith_link 0]
  exact (wordLinks_typeDocument scope type).map_snd

theorem plain_typeDocument (scope : Scope) (type : Text) :
    (scope.typeDocument type).plain = normalizeType type := by
  rw [typeDocument_eq_ofGlyphs, Document.plain_ofGlyphs, text_glyphs]

/-- **The links of a type** are exactly those of its words, each on the name that its word
refers to, where that name stands among the words without qualifiers. It stands alone
there. A word with a foreign qualifier refers to nothing, and without documented names
nothing is linked. -/
theorem typeDocument_links (scope : Scope) (type : Text) :
    (scope.typeDocument type).plain = [' '].intercalate ((words type).map Word.dropQualifier) ∧
      scope.WordLinks 0 (words type) ((scope.typeDocument type).placedWith .link 0) ∧
      (∀ place token, (place, token) ∈ (scope.typeDocument type).placedWith .link 0 →
        StandsAlone token.text place (scope.typeDocument type).plain) ∧
      ((scope.typeDocument type).placedWith .link 0).map Prod.fst = scope.referenceOffsets type ∧
      (∀ word name, Word.qualifier word ≠ [] → scope.module ≠ some (Word.qualifier word) →
        ¬ scope.Refers word name) ∧
      (scope.names = [] → (scope.typeDocument type).links = []) := by
  have hlinks := wordLinks_typeDocument scope type
  refine ⟨plain_typeDocument scope type, hlinks, ?_, ?_, ?_, ?_⟩
  · intro place token hmem
    obtain ⟨k, rfl, hk⟩ := hlinks.standsAlone hmem
    rw [plain_typeDocument, Nat.zero_add]
    exact hk
  · exact hlinks.map_fst
  · intro word name hne hforeign hrefers
    exact hrefers.qualifier.elim hne hforeign
  · intro hnames
    rw [links_typeDocument, List.flatMap_eq_nil_iff]
    intro word _
    unfold wordLink
    split
    · next name _ href =>
      have hmem := (reference?_eq_some_iff.1 href).1.documented
      rw [hnames] at hmem
      simp at hmem
    · rfl

/-- The module's own name links with its qualifier and without, a name of another module
does not. -/
example :
    let scope : Scope := { names := ["Point".toList], module := some "Plane".toList }
    (scope.typeDocument "(Plane.Point -> Space.Point) -> Point".toList).placedWith .link 0 =
      [(1, .reference "Point".toList), (20, .reference "Point".toList)] := by
  decide

end Scope

end PackageDocs
