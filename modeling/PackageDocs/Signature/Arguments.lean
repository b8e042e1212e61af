import PackageDocs.Signature.Scan

/-!
# Arguments of a function type

A function type lists its arguments with arrows between them. An arrow separates two
arguments when it stands outside all brackets; one inside brackets belongs to the
argument around it.

## Main definitions

- `markArrows`, `unmarkArrows`: arrows as single characters and back
- `splitArguments`: the arguments of a type

## Design notes

An arrow is four characters long, and matches are taken from the left without
overlap. Marking them first leaves one character to look for. A mark that is already
in the text counts as an arrow.
-/

namespace PackageDocs

/-- The text between two arguments. -/
def arrow : Text := " -> ".toList

/-- Every arrow as one mark, from the left without overlap. -/
def markArrows : Text → Text
  | ' ' :: '-' :: '>' :: ' ' :: rest => Scan.arrowMark :: markArrows rest
  | c :: rest => c :: markArrows rest
  | [] => []

/-- Every mark as an arrow. -/
def unmarkArrows (t : Text) : Text :=
  t.flatMap fun c => if c = Scan.arrowMark then arrow else [c]

/-- The arguments of the type, cut at the arrows outside brackets. -/
def splitArguments (type : Text) : List Text :=
  (Scan.fresh.run .arguments (markArrows type)).close.chunks.map unmarkArrows

end PackageDocs
