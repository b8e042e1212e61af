import PackageDocs.Proofs.Signature.Qualifiers
import PackageDocs.Signature.Colouring

/-!
# Glyphs

What a type shows are characters and names: each word gives the characters it is shown
with, and the name it refers to in their place. Glyphs become tokens from the right, so
a character joins the plain token behind it. Made in this way a document needs no offsets.

## Main definitions

- `Glyph`, `Scope.glyphs`: a type as characters and names, in the order shown
- `Document.consPlain`: a character in front of a document
- `Document.ofGlyphs`: glyphs as tokens
- `punctuation`, `Text.IsFree`: the marks between the parts of a type, and texts without

## Main results

- `Document.ofGlyphs_append_mark`, `Document.ofGlyphs_append_name`: what stands before and
  behind punctuation or a name is put into tokens apart
- `Document.ofGlyphs_map_char`: characters without punctuation are one plain token
-/

namespace PackageDocs

/-- One thing to show: a character, or the name of a documented type. -/
inductive Glyph where
  | char (c : Char)
  | name (text : Text)
  deriving Repr, DecidableEq

/-- The text that the glyph shows. -/
def Glyph.text : Glyph → Text
  | .char c => [c]
  | .name text => text

namespace Scope

/-- The word as it is shown. -/
def wordGlyphs (scope : Scope) (word : Text) : List Glyph :=
  match scope.reference? word with
  | some (before, name, after) => before.map .char ++ .name name :: after.map .char
  | none => (Word.dropQualifier word).map .char

/-- The type as it is shown: its words without qualifiers, with single spaces. -/
def glyphs (scope : Scope) (type : Text) : List Glyph :=
  [Glyph.char ' '].intercalate ((Text.words type).map scope.wordGlyphs)

end Scope

/-- The marks between the parts of a type. -/
def punctuation : List Text := [[':'], ['-', '>']]

namespace Text

/-- The text holds none of the marks. -/
def IsFree (marks : List Text) (t : Text) : Prop :=
  ∀ mark ∈ marks, ¬ mark <:+: t

variable {c : Char} {t : Text}

theorem isFree_nil : IsFree punctuation [] := by
  simp [IsFree, punctuation]

/-- A character that neither is a colon nor starts an arrow keeps a text free. -/
theorem IsFree.cons (h : IsFree punctuation t) (hcolon : c ≠ ':')
    (harrow : c = '-' → t.head? ≠ some '>') : IsFree punctuation (c :: t) := by
  intro mark hmark hinfix
  rcases List.infix_cons_iff.1 hinfix with hfirst | hrest
  · obtain rfl | rfl : mark = [':'] ∨ mark = ['-', '>'] := by simpa [punctuation] using hmark
    · exact hcolon (List.cons_prefix_cons.1 hfirst).1.symm
    · obtain ⟨rfl, hsecond⟩ := List.cons_prefix_cons.1 hfirst
      obtain ⟨rest, rfl⟩ := hsecond
      exact harrow rfl rfl
  · exact h mark hmark hrest

theorem IsFree.of_infix {s : Text} (h : IsFree punctuation t) (hs : s <:+: t) :
    IsFree punctuation s :=
  fun mark hmark hmem => h mark hmark (hmem.trans hs)

end Text

namespace Document

/-- The character in front of the document, joined to a plain token that is first. -/
def consPlain (c : Char) : Document → Document
  | ⟨text, .plain, none, false⟩ :: rest => .plain (c :: text) :: rest
  | rest => .plain [c] :: rest

/-- The glyphs as tokens: arrows and colons are keywords, names are references. -/
def ofGlyphs : List Glyph → Document
  | .char '-' :: .char '>' :: rest => .keyword ['-', '>'] :: ofGlyphs rest
  | .char ':' :: rest => .keyword [':'] :: ofGlyphs rest
  | .char c :: rest => consPlain c (ofGlyphs rest)
  | .name text :: rest => .reference text :: ofGlyphs rest
  | [] => []

variable {c : Char} {d e : Document}

/-- A character in front joins a plain token, or becomes one. -/
theorem consPlain_cases (c : Char) (d : Document) :
    (∃ text rest, d = .plain text :: rest ∧ consPlain c d = .plain (c :: text) :: rest) ∨
      consPlain c d = .plain [c] :: d := by
  unfold consPlain
  split
  · next text rest => exact Or.inl ⟨text, rest, rfl, rfl⟩
  · exact Or.inr rfl

theorem consPlain_of_head? (h : ∀ token ∈ d.head?, token.role ≠ .plain) :
    consPlain c d = .plain [c] :: d := by
  rcases consPlain_cases c d with ⟨text, rest, rfl, -⟩ | hcons
  · exact absurd rfl (h (.plain text) rfl)
  · exact hcons

theorem consPlain_append (h : ∀ token ∈ e.head?, token.role ≠ .plain) :
    consPlain c (d ++ e) = consPlain c d ++ e := by
  cases d with
  | nil => exact consPlain_of_head? h
  | cons token rest =>
    rw [List.cons_append]
    unfold consPlain
    split
    · next heq =>
      obtain ⟨rfl, rfl⟩ := List.cons.inj heq
      rfl
    · next hnot =>
      split
      · next heq =>
        obtain ⟨rfl, rfl⟩ := List.cons.inj heq
        exact absurd rfl (hnot _ _)
      · rfl

/-- Tokens that follow a plain token without joining it may be made apart from it. -/
theorem ofGlyphs_append {gs tail : List Glyph} (hhead : ∀ rest, tail ≠ .char '>' :: rest)
    (hfirst : ∀ token ∈ (ofGlyphs tail).head?, token.role ≠ .plain) :
    ofGlyphs (gs ++ tail) = ofGlyphs gs ++ ofGlyphs tail := by
  induction gs using ofGlyphs.induct with
  | case1 rest ih => exact congrArg (.keyword ['-', '>'] :: ·) ih
  | case2 rest ih => exact congrArg (.keyword [':'] :: ·) ih
  | case3 c rest hnotArrow hnotColon ih =>
    -- no arrow straddles the two parts
    have hjoined : ∀ later, rest ++ tail = .char '>' :: later → c = '-' → False := by
      rintro later heq rfl
      cases rest with
      | nil => exact hhead later heq
      | cons g rest =>
        obtain ⟨rfl, -⟩ := List.cons.inj heq
        exact hnotArrow rest rfl rfl
    rw [List.cons_append, ofGlyphs.eq_3 c _ hjoined hnotColon, ih, consPlain_append hfirst,
      ofGlyphs.eq_3 c _ hnotArrow hnotColon]
  | case4 text rest ih => exact congrArg (.reference text :: ·) ih
  | case5 => rfl

/-- Punctuation is a keyword between what stands before and behind it. -/
theorem ofGlyphs_append_mark {mark : Text} (h : mark ∈ punctuation) (gs tail : List Glyph) :
    ofGlyphs (gs ++ (mark.map .char ++ tail)) = ofGlyphs gs ++ .keyword mark :: ofGlyphs tail := by
  obtain rfl | rfl : mark = [':'] ∨ mark = ['-', '>'] := by simpa [punctuation] using h
  · exact ofGlyphs_append (by simp) (by simp [ofGlyphs, Token.keyword])
  · exact ofGlyphs_append (by simp) (by simp [ofGlyphs, Token.keyword])

/-- A name is a reference between what stands before and behind it. -/
theorem ofGlyphs_append_name (gs : List Glyph) (name : Text) (tail : List Glyph) :
    ofGlyphs (gs ++ .name name :: tail) = ofGlyphs gs ++ .reference name :: ofGlyphs tail :=
  ofGlyphs_append (by simp) (by simp [ofGlyphs, Token.reference])

/-- Characters without punctuation are one plain token. -/
theorem ofGlyphs_map_char {t : Text} (h : Text.IsFree punctuation t) :
    ofGlyphs (t.map .char) = shown [.plain t] := by
  induction t with
  | nil => rfl
  | cons c t ih =>
    have hcolon : c ≠ ':' := by
      rintro rfl
      exact h [':'] (by simp [punctuation]) ⟨[], t, rfl⟩
    have harrow : ∀ later, t.map Glyph.char = .char '>' :: later → c = '-' → False := by
      rintro later heq rfl
      obtain ⟨d, rest, rfl, hd, -⟩ := List.map_eq_cons_iff.1 heq
      obtain rfl : d = '>' := Glyph.char.inj hd
      exact h ['-', '>'] (by simp [punctuation]) ⟨[], rest, rfl⟩
    rw [List.map_cons, ofGlyphs.eq_3 c _ harrow hcolon,
      ih (h.of_infix (List.suffix_cons c t).isInfix)]
    cases t <;> rfl

end Document

end PackageDocs
