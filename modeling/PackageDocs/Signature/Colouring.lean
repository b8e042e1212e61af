import PackageDocs.Document
import PackageDocs.Signature.Reference

/-!
# Types in colour

A type is shown without qualifiers, its colons and arrows as keywords and the names
of documented types as references. Everything between two of these is one plain
token.

## Main definitions

- `Text.arrowPieces`: a text cut at its arrows
- `Text.identifiers`: the identifiers of a text, with their offsets
- `Document.cut`: a text cut around some of its identifiers
- `Colouring`: a document while it is put together
- `Scope.typeDocument`: a type as a document

## Design notes

A type is read twice. First its raw words say at which offsets of the normalized type a
name refers to the page. Then the normalized type is cut at its colons and arrows, the
identifiers of each piece are looked up, and those at one of the offsets become
references. The two readings meet in the offsets alone, so the second keeps count of all
that it has passed, the punctuation included.
-/

namespace PackageDocs

namespace Text

/-- The text cut at every arrow, from the left; the arrows are dropped. -/
def arrowPieces : Text → List Text
  | '-' :: '>' :: rest => [] :: arrowPieces rest
  | c :: rest =>
    match arrowPieces rest with
    | [] => [[c]]
    | piece :: later => (c :: piece) :: later
  | [] => [[]]

/-- The identifiers of a text that starts at `offset`, each as long as it goes, with
their offsets. The first `skip` characters belong to an identifier found before. -/
def identifiersFrom (offset skip : Nat) : Text → List (Nat × Text)
  | [] => []
  | c :: rest =>
    match skip with
    | n + 1 => identifiersFrom (offset + 1) n rest
    | 0 =>
      if Scope.isNameStart c then
        let run := rest.takeWhile Scope.isNameChar
        (offset, c :: run) :: identifiersFrom (offset + 1) run.length rest
      else identifiersFrom (offset + 1) 0 rest

/-- The identifiers of the text with their offsets, from the left. -/
def identifiers (t : Text) : List (Nat × Text) :=
  identifiersFrom 0 0 t

end Text

namespace Document

/-- The text from `last` on, cut around those of the identifiers that are at one of the
offsets, when the text itself starts at `base`. -/
def cut (offsets : List Nat) (base : Nat) (t : Text) (last : Nat) : List (Nat × Text) → Document
  | [] => [.plain (t.drop last)]
  | (start, name) :: later =>
    if offsets.contains (base + start) then
      .plain ((t.take start).drop last) :: .reference name ::
        cut offsets base t (start + name.length) later
    else cut offsets base t last later

/-- The text that starts at `base` with references at the offsets. -/
def referring (offsets : List Nat) (base : Nat) (t : Text) : Document :=
  if offsets.isEmpty then [.plain t] else cut offsets base t 0 (Text.identifiers t)

/-- The tokens that show something. -/
def shown (d : Document) : Document :=
  d.filter fun token => !token.text.isEmpty

end Document

/-- The tokens made so far, and the offset in the text at which the next one starts. -/
structure Colouring where
  tokens : Document := []
  offset : Nat := 0

namespace Colouring

/-- Punctuation at the end. -/
def mark (s : Colouring) (punctuation : Text) : Colouring where
  tokens := s.tokens ++ [.keyword punctuation]
  offset := s.offset + punctuation.length

/-- A piece without punctuation at the end. -/
def piece (offsets : List Nat) (s : Colouring) (t : Text) : Colouring where
  tokens := s.tokens ++ Document.referring offsets s.offset t
  offset := s.offset + t.length

/-- The parts one after the other at the end, with punctuation between them. -/
def parts (punctuation : Text) (add : Colouring → Text → Colouring) (s : Colouring) :
    List Text → Colouring
  | [] => s
  | first :: rest => rest.foldl (fun s part => add (s.mark punctuation) part) (add s first)

end Colouring

/-- The type as it is shown on a page with this scope. -/
def Scope.typeDocument (scope : Scope) (type : Text) : Document :=
  let offsets := scope.referenceOffsets type
  let arrows (s : Colouring) (part : Text) : Colouring :=
    s.parts ['-', '>'] (Colouring.piece offsets) (Text.arrowPieces part)
  let colons := Text.pieces (· == ':') (normalizeType type)
  Document.shown (Colouring.parts [':'] arrows {} colons).tokens

end PackageDocs
