import PackageDocs.Signature.Scan
import PackageDocs.Text.Blank

/-!
# Fields of a record type

A record type is cut before each comma that stands directly inside its braces and
after the brace that closes it. What follows the record is one more piece.

## Main definitions

- `recordPieces`: the pieces as they stand in the text
- `splitRecord`: the pieces trimmed, a blank rest left out
-/

namespace PackageDocs

/-- The chunks cut from the record, and what follows the last cut. -/
def recordPieces (type : Text) : List Text × Text :=
  let scan := Scan.fresh.run .record type
  (scan.chunks, scan.current)

/-- The fields of the record, each with the brace or comma in front of it, and the
text behind the record if it is not blank. -/
def splitRecord (type : Text) : List Text :=
  let (cut, rest) := recordPieces type
  let rest := Text.trim rest
  cut.map Text.trim ++ if rest.isEmpty then [] else [rest]

end PackageDocs
