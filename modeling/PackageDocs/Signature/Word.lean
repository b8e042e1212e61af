import PackageDocs.Text.Blank

/-!
# Words of a type

A type is written as words with blanks between them. A word may open with a run of
brackets; what follows may be qualified, as in `(Json.Decode.Decoder`: the qualifier
is everything up to the last dot, and the reader is shown the rest.

## Main definitions

- `Word.isOpener`: the brackets that a word may open with
- `Word.qualifier`: what stands before the last dot
- `Word.dropQualifier`: the word as it is shown
- `normalizeType`: a type with every word as it is shown

## Design notes

Both functions cut at the same dot, found by `cutLastDot`. A word that ends in its
last dot is shown whole, since nothing would be left of it.
-/

namespace PackageDocs

namespace Word

/-- The brackets that a word may open with. -/
def isOpener (c : Char) : Bool :=
  c == '(' || c == '{' || c == '['

/-- The brackets at the start of the word. -/
def openers (word : Text) : Text :=
  word.takeWhile isOpener

/-- The word without the brackets at its start. -/
def body (word : Text) : Text :=
  word.dropWhile isOpener

/-- What stands before and after the last dot, if there is a dot. -/
def cutLastDot : Text → Option (Text × Text)
  | [] => none
  | c :: rest =>
    match cutLastDot rest with
    | some (before, after) => some (c :: before, after)
    | none => if c = '.' then some ([], rest) else none

/-- The part of the word between its opening brackets and its last dot; empty when
there is no dot. -/
def qualifier (word : Text) : Text :=
  match cutLastDot (body word) with
  | some (before, _) => before
  | none => []

/-- The word without its qualifier, the brackets at its start kept. A word that ends
in its last dot stays whole. -/
def dropQualifier (word : Text) : Text :=
  match cutLastDot (body word) with
  | some (_, c :: rest) => openers word ++ c :: rest
  | _ => word

end Word

/-- The words of the type without their qualifiers, with single spaces between them. -/
def normalizeType (type : Text) : Text :=
  [' '].intercalate ((Text.words type).map Word.dropQualifier)

end PackageDocs
