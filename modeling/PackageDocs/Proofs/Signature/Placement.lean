import PackageDocs.Proofs.Signature.Glyphs

/-!
# Places of tokens

A token stands in the text of its document behind the texts of all tokens before it.
What is said about places of keywords and links is said about tokens with the offsets
of their texts.

## Main definitions

- `Document.placed`: the tokens with their offsets
- `Document.placedWith`: those of one role
- `Document.links`: the links without their offsets
- `Document.placedNames`: the names among glyphs with their offsets

## Main results

- `Document.plain_consPlain`, `Document.placedWith_consPlain`: a character in front of a
  document joins its text and moves everything else one place on
- `Document.plain_ofGlyphs`, `Document.placedWith_link_ofGlyphs`: the tokens made of glyphs
  show their text, and link their names
-/

namespace PackageDocs

namespace Document

/-- The tokens with the offsets of their texts, in a document that starts at `offset`. -/
def placed (offset : Nat) : Document → List (Nat × Token)
  | [] => []
  | token :: rest => (offset, token) :: placed (offset + token.text.length) rest

/-- The tokens of one role with the offsets of their texts. -/
def placedWith (role : Role) (offset : Nat) (d : Document) : List (Nat × Token) :=
  (placed offset d).filter fun place => place.2.role = role

/-- The links of the document, in order. -/
def links (d : Document) : Document :=
  d.filter fun token => token.role = .link

variable {role : Role} {offset : Nat} {token : Token} {c : Char} {d : Document}

theorem placedWith_cons_of_eq (h : token.role = role) :
    placedWith role offset (token :: d) =
      (offset, token) :: placedWith role (offset + token.text.length) d := by
  simp [placedWith, placed, h]

theorem placedWith_cons_of_ne (h : token.role ≠ role) :
    placedWith role offset (token :: d) = placedWith role (offset + token.text.length) d := by
  simp [placedWith, placed, h]

theorem map_snd_placedWith_link (offset : Nat) (d : Document) :
    (placedWith .link offset d).map Prod.snd = links d := by
  induction d generalizing offset with
  | nil => rfl
  | cons token rest ih =>
    by_cases h : token.role = .link
    · rw [placedWith_cons_of_eq h, List.map_cons, ih]
      simp [links, h]
    · rw [placedWith_cons_of_ne h, ih]
      simp [links, h]

theorem links_append (d e : Document) : links (d ++ e) = links d ++ links e :=
  List.filter_append ..

theorem plain_consPlain (c : Char) (d : Document) : plain (consPlain c d) = c :: plain d := by
  rcases consPlain_cases c d with ⟨text, rest, rfl, h⟩ | h
  · rw [h]
    rfl
  · rw [h]
    rfl

/-- All that is not plain moves one place on. -/
theorem placedWith_consPlain (h : role ≠ .plain) :
    placedWith role offset (consPlain c d) = placedWith role (offset + 1) d := by
  rcases consPlain_cases c d with ⟨text, rest, rfl, hd⟩ | hd
  · rw [hd, placedWith_cons_of_ne h.symm, placedWith_cons_of_ne h.symm]
    congr 1
    show offset + (text.length + 1) = offset + 1 + text.length
    omega
  · rw [hd, placedWith_cons_of_ne h.symm]
    rfl

/-- The names among glyphs that start at `offset`, with their offsets. -/
def placedNames (offset : Nat) : List Glyph → List (Nat × Text)
  | [] => []
  | .char _ :: rest => placedNames (offset + 1) rest
  | .name text :: rest => (offset, text) :: placedNames (offset + text.length) rest

theorem plain_ofGlyphs (gs : List Glyph) : plain (ofGlyphs gs) = gs.flatMap Glyph.text := by
  induction gs using ofGlyphs.induct with
  | case1 rest ih => exact congrArg ('-' :: '>' :: ·) ih
  | case2 rest ih => exact congrArg (':' :: ·) ih
  | case3 c rest _ _ ih =>
    rw [ofGlyphs, plain_consPlain, ih]
    · rfl
    · assumption
    · assumption
  | case4 text rest ih => exact congrArg (text ++ ·) ih
  | case5 => rfl

/-- The links are the names. -/
theorem placedWith_link_ofGlyphs (offset : Nat) (gs : List Glyph) :
    placedWith .link offset (ofGlyphs gs) =
      (placedNames offset gs).map fun place => (place.1, .reference place.2) := by
  induction gs using ofGlyphs.induct generalizing offset with
  | case1 rest ih =>
    rw [ofGlyphs, placedWith_cons_of_ne (by decide), ih]
    rfl
  | case2 rest ih =>
    rw [ofGlyphs, placedWith_cons_of_ne (by decide), ih]
    rfl
  | case3 c rest _ _ ih =>
    rw [ofGlyphs, placedWith_consPlain (by decide), ih]
    · rfl
    · assumption
    · assumption
  | case4 text rest ih =>
    have hrole : (Token.reference text).role = .link := rfl
    rw [ofGlyphs, placedWith_cons_of_eq hrole, ih]
    rfl
  | case5 => rfl

/-- Characters hold no names, and the names behind them are moved on. -/
theorem placedNames_chars_append (offset : Nat) (t : Text) (gs : List Glyph) :
    placedNames offset (t.map .char ++ gs) = placedNames (offset + t.length) gs := by
  induction t generalizing offset with
  | nil => rfl
  | cons c t ih =>
    rw [List.map_cons, List.cons_append, placedNames, ih]
    congr 1
    rw [List.length_cons]
    omega

end Document

end PackageDocs
