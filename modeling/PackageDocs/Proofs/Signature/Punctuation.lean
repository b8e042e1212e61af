import PackageDocs.Proofs.Signature.References

/-!
# Punctuation of types

A type in colour is the normalized type cut into tokens. Its keywords are the colons and
the arrows of that text, all of them and each where it stands; what lies between them
holds neither.

## Main definitions

- `Text.occurrences`: where marks stand in a text

## Main results

- `Document.placedWith_keyword_ofGlyphs`: the keywords are the occurrences of punctuation
- `Scope.typeDocument_colours`: a type in colour is a colouring of the normalized type
-/

namespace PackageDocs

namespace Text

/-- The places at which one of the marks stands in a text that starts at `offset`, from
the left, each with its mark. -/
def occurrences (marks : List Text) (offset : Nat) (t : Text) : List (Nat × Text) :=
  (List.range t.length).flatMap fun i =>
    (marks.filter (·.isPrefixOf (t.drop i))).map (offset + i, ·)

variable {offset : Nat} {c : Char} {t : Text}

theorem occurrences_cons (marks : List Text) (offset : Nat) (c : Char) (t : Text) :
    occurrences marks offset (c :: t) =
      (marks.filter (·.isPrefixOf (c :: t))).map (offset, ·) ++
        occurrences marks (offset + 1) t := by
  rw [occurrences, List.length_cons, List.range_succ_eq_map, List.flatMap_cons, List.flatMap_map,
    occurrences]
  congr 2
  funext i
  rw [List.drop_succ_cons, Nat.add_assoc, Nat.add_comm 1 i]

theorem occurrences_colon (offset : Nat) (t : Text) :
    occurrences punctuation offset (':' :: t) =
      (offset, [':']) :: occurrences punctuation (offset + 1) t := by
  simp [occurrences_cons, punctuation]

/-- A character that neither is a colon nor starts an arrow is left behind. -/
theorem occurrences_other (hcolon : c ≠ ':') (harrow : c = '-' → t.head? ≠ some '>') :
    occurrences punctuation offset (c :: t) = occurrences punctuation (offset + 1) t := by
  have hnone : punctuation.filter (·.isPrefixOf (c :: t)) = [] := by
    cases t with
    | nil => simp [punctuation, hcolon.symm]
    | cons d t =>
      have hd : '-' = c → '>' ≠ d := by
        rintro rfl rfl
        exact harrow rfl rfl
      simpa [punctuation, hcolon.symm] using hd
  rw [occurrences_cons, hnone, List.map_nil, List.nil_append]

theorem occurrences_arrow (offset : Nat) (t : Text) :
    occurrences punctuation offset ('-' :: '>' :: t) =
      (offset, ['-', '>']) :: occurrences punctuation (offset + 2) t := by
  have hrest : occurrences punctuation (offset + 1) ('>' :: t) =
      occurrences punctuation (offset + 2) t :=
    occurrences_other (by decide) (by simp)
  rw [occurrences_cons, hrest]
  simp [punctuation]

/-- An identifier holds no punctuation. -/
theorem occurrences_append {name : Text} (h : Scope.IsIdentifier name) (offset : Nat) (t : Text) :
    occurrences punctuation offset (name ++ t) =
      occurrences punctuation (offset + name.length) t := by
  have run : ∀ s : Text, (∀ c ∈ s, Scope.isNameChar c = true) → ∀ offset : Nat,
      occurrences punctuation offset (s ++ t) = occurrences punctuation (offset + s.length) t := by
    intro s hs
    induction s with
    | nil => exact fun _ => rfl
    | cons c s ih =>
      intro offset
      have hc := hs c List.mem_cons_self
      have hcolon : c ≠ ':' := by rintro rfl; exact absurd hc (by decide)
      have hminus : c ≠ '-' := by rintro rfl; exact absurd hc (by decide)
      rw [List.cons_append, occurrences_other hcolon fun h => absurd h hminus,
        ih fun d hd => hs d (List.mem_cons_of_mem _ hd)]
      congr 1
      rw [List.length_cons]
      omega
  exact run name h.forall_isNameChar offset

theorem isFree_of_isIdentifier {name : Text} (h : Scope.IsIdentifier name) :
    IsFree punctuation name := by
  intro mark hmark hinfix
  have hmem := hinfix.subset
  obtain rfl | rfl : mark = [':'] ∨ mark = ['-', '>'] := by simpa [punctuation] using hmark
  · exact absurd (h.forall_isNameChar ':' (hmem (by simp))) (by decide)
  · exact absurd (h.forall_isNameChar '-' (hmem (by simp))) (by decide)

end Text

open Text

namespace Document

variable {gs : List Glyph}

/-- Where identifiers are named, a text that starts with `>` starts with that character. -/
theorem eq_char_cons_of_head? (hnames : ∀ name, Glyph.name name ∈ gs → Scope.IsIdentifier name)
    (hhead : (gs.flatMap Glyph.text).head? = some '>') : ∃ rest, gs = .char '>' :: rest := by
  cases gs with
  | nil => simp at hhead
  | cons g gs =>
    cases g with
    | char c =>
      obtain rfl : c = '>' := by simpa [Glyph.text] using hhead
      exact ⟨gs, rfl⟩
    | name text =>
      have hid := hnames text List.mem_cons_self
      obtain ⟨c, rest, rfl⟩ := List.exists_cons_of_ne_nil hid.ne_nil
      obtain rfl : c = '>' := by simpa [Glyph.text] using hhead
      exact absurd (hid.forall_isNameChar '>' List.mem_cons_self) (by decide)

/-- The keywords are the occurrences of punctuation in the text. -/
theorem placedWith_keyword_ofGlyphs (offset : Nat)
    (hnames : ∀ name, Glyph.name name ∈ gs → Scope.IsIdentifier name) :
    placedWith .keyword offset (ofGlyphs gs) =
      (occurrences punctuation offset (gs.flatMap Glyph.text)).map
        fun place => (place.1, .keyword place.2) := by
  induction gs using ofGlyphs.induct generalizing offset with
  | case1 rest ih =>
    have hrole : (Token.keyword ['-', '>']).role = .keyword := rfl
    rw [ofGlyphs, placedWith_cons_of_eq hrole, ih _ fun name hname => hnames name (by simp [hname])]
    show _ = (occurrences punctuation offset ('-' :: '>' :: rest.flatMap Glyph.text)).map _
    rw [occurrences_arrow]
    rfl
  | case2 rest ih =>
    have hrole : (Token.keyword [':']).role = .keyword := rfl
    rw [ofGlyphs, placedWith_cons_of_eq hrole, ih _ fun name hname => hnames name (by simp [hname])]
    show _ = (occurrences punctuation offset (':' :: rest.flatMap Glyph.text)).map _
    rw [occurrences_colon]
    rfl
  | case3 c rest hnotArrow hnotColon ih =>
    have hrest := fun name hname => hnames name (List.mem_cons_of_mem _ hname)
    -- No name starts with `>`, so a minus in front of one would be an arrow.
    have harrow : c = '-' → (rest.flatMap Glyph.text).head? ≠ some '>' := by
      rintro rfl hhead
      obtain ⟨later, rfl⟩ := eq_char_cons_of_head? hrest hhead
      exact hnotArrow later rfl rfl
    rw [ofGlyphs, placedWith_consPlain (by decide), ih _ hrest]
    · show _ = (occurrences punctuation offset (c :: rest.flatMap Glyph.text)).map _
      rw [occurrences_other hnotColon harrow]
    · exact hnotArrow
    · exact hnotColon
  | case4 text rest ih =>
    have hrole : (Token.reference text).role ≠ .keyword := by simp [Token.reference]
    rw [ofGlyphs, placedWith_cons_of_ne hrole, ih _ fun name hname => hnames name (by simp [hname]),
      List.flatMap_cons]
    show _ = (occurrences punctuation offset (text ++ rest.flatMap Glyph.text)).map _
    rw [occurrences_append (hnames text List.mem_cons_self)]
    rfl
  | case5 => rfl

/-- No token is empty, and those that are no keywords hold no punctuation. -/
theorem isFree_of_mem_ofGlyphs
    (hnames : ∀ name, Glyph.name name ∈ gs → Scope.IsIdentifier name) :
    ∀ token ∈ ofGlyphs gs,
      token.text ≠ [] ∧ (token.role ≠ .keyword → IsFree punctuation token.text) := by
  induction gs using ofGlyphs.induct with
  | case1 rest ih =>
    rw [ofGlyphs]
    intro token htoken
    rcases List.mem_cons.1 htoken with rfl | htoken
    · exact ⟨by simp [Token.keyword], fun h => absurd rfl h⟩
    · exact ih (fun name hname => hnames name (by simp [hname])) token htoken
  | case2 rest ih =>
    rw [ofGlyphs]
    intro token htoken
    rcases List.mem_cons.1 htoken with rfl | htoken
    · exact ⟨by simp [Token.keyword], fun h => absurd rfl h⟩
    · exact ih (fun name hname => hnames name (by simp [hname])) token htoken
  | case3 c rest hnotArrow hnotColon ih =>
    have hrest := fun name hname => hnames name (List.mem_cons_of_mem _ hname)
    have htail := ih hrest
    rw [ofGlyphs]
    · rcases consPlain_cases c (ofGlyphs rest) with ⟨text, later, hdoc, hcons⟩ | hcons
      · -- The text of the first token is the start of the text of all glyphs behind `c`.
        have harrow : c = '-' → text.head? ≠ some '>' := by
          rintro rfl hhead
          have hshown : (rest.flatMap Glyph.text).head? = some '>' := by
            rw [← plain_ofGlyphs, hdoc]
            show (text ++ plain later).head? = some '>'
            rw [List.head?_append, hhead, Option.some_or]
          obtain ⟨glyphs, rfl⟩ := eq_char_cons_of_head? hrest hshown
          exact hnotArrow glyphs rfl rfl
        rw [hcons]
        rw [hdoc] at htail
        intro token htoken
        rcases List.mem_cons.1 htoken with rfl | htoken
        · refine ⟨by simp [Token.plain], fun _ => ?_⟩
          exact ((htail (.plain text) List.mem_cons_self).2 (by simp [Token.plain])).cons
            hnotColon harrow
        · exact htail token (List.mem_cons_of_mem _ htoken)
      · rw [hcons]
        intro token htoken
        rcases List.mem_cons.1 htoken with rfl | htoken
        · exact ⟨by simp [Token.plain], fun _ => isFree_nil.cons hnotColon (by simp)⟩
        · exact htail token htoken
    · exact hnotArrow
    · exact hnotColon
  | case4 text rest ih =>
    have hid := hnames text List.mem_cons_self
    rw [ofGlyphs]
    intro token htoken
    rcases List.mem_cons.1 htoken with rfl | htoken
    · exact ⟨hid.ne_nil, fun _ => isFree_of_isIdentifier hid⟩
    · exact ih (fun name hname => hnames name (by simp [hname])) token htoken
  | case5 => simp [ofGlyphs]

end Document

namespace Scope

/-- **A type in colour** is a colouring of the normalized type: it shows that text, its
keywords are the colons and arrows of the text where they stand, no other token holds a
colon or an arrow, and no token is empty. -/
theorem typeDocument_colours (scope : Scope) (type : Text) :
    (scope.typeDocument type).plain = normalizeType type ∧
      (scope.typeDocument type).placedWith .keyword 0 =
        (occurrences punctuation 0 (normalizeType type)).map
          (fun place => (place.1, Token.keyword place.2)) ∧
      (∀ token ∈ scope.typeDocument type, token.role ≠ .keyword →
        ¬ [':'] <:+: token.text ∧ ¬ ['-', '>'] <:+: token.text) ∧
      ∀ token ∈ scope.typeDocument type, token.text ≠ [] := by
  have hnames : ∀ name, Glyph.name name ∈ scope.glyphs type → IsIdentifier name := by
    intro name hname
    obtain ⟨word, -, hrefers⟩ := refers_of_name_mem_glyphs hname
    exact hrefers.leads.identifier
  have htokens := Document.isFree_of_mem_ofGlyphs hnames
  rw [← typeDocument_eq_ofGlyphs] at htokens
  refine ⟨plain_typeDocument scope type, ?_, ?_, ?_⟩
  · rw [typeDocument_eq_ofGlyphs, Document.placedWith_keyword_ofGlyphs 0 hnames, text_glyphs]
  · intro token htoken hrole
    have hfree := (htokens token htoken).2 hrole
    exact ⟨hfree [':'] (by simp [punctuation]), hfree ['-', '>'] (by simp [punctuation])⟩
  · exact fun token htoken => (htokens token htoken).1

end Scope

end PackageDocs
