import PackageDocs.Text.Blank
import PackageDocs.Text.Lines
import PackageDocs.Text.Mentions

/-!
# Sections of a module comment

The comment of a module is prose with listings in between. A listing is a line that
starts with `@docs` and names entries, with commas between them; operators may be
written in parentheses.

## Main definitions

- `Comment.isListing`: the line names entries
- `Comment.listedNames`: the names on such a line
- `Comment.Section`, `Comment.sections`: the comment cut at its listings
- `Comment.prose`: the markdown of a run of prose lines
- `Comment.mentions`: all names listed, in order
-/

namespace PackageDocs

namespace Comment

/-- What a listing starts with. -/
def listingMark : Text := "@docs".toList

/-- The line names entries. -/
def isListing (line : Text) : Bool :=
  listingMark.isPrefixOf (Text.trim line)

/-- The name inside one pair of parentheses, if there is such a pair around it. -/
def unwrapName (name : Text) : Text :=
  if name.head? = some '(' ∧ name.getLast? = some ')' ∧ 2 < name.length then
    name.tail.dropLast
  else name

/-- The names on a listing, as often as they stand there. The mark is the first five
characters of the trimmed line. -/
def listedNames (line : Text) : List Text :=
  let parts := Text.pieces (· == ',') ((Text.trim line).drop listingMark.length)
  (parts.map fun part => unwrapName (Text.trim part)).filter fun name => !name.isEmpty

/-- A run of prose lines, or the names of one listing. -/
inductive Section where
  | prose (lines : List Text)
  | listing (names : List Text)
  deriving Repr, DecidableEq

/-- The lines cut at the listings; a listing mentions each name once. -/
def sections : List Text → List Section
  | [] => []
  | line :: rest =>
    if isListing line then .listing (Text.firstMentions (listedNames line)) :: sections rest
    else
      match sections rest with
      | .prose lines :: later => .prose (line :: lines) :: later
      | later => .prose [line] :: later

/-- The markdown of a run of prose lines, without blanks around it. -/
def prose (lines : List Text) : Text :=
  Text.trim (['\n'].intercalate lines)

/-- The names that the section lists. -/
def Section.names : Section → List Text
  | .prose _ => []
  | .listing names => names

/-- The names that the sections list, in order. -/
def mentions (sections : List Section) : List Text :=
  sections.flatMap Section.names

end Comment

end PackageDocs
