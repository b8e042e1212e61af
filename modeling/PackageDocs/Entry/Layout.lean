import PackageDocs.Entry.Basic
import PackageDocs.Entry.Frame
import PackageDocs.Signature.Arguments
import PackageDocs.Signature.Colouring
import PackageDocs.Signature.Record

/-!
# Layout of signatures

The signature of an entry starts with its name, the anchor of all links to it. The
type of a value follows on the same line when the whole line stays shorter than the
frame is wide, and is stacked otherwise, one argument to a line. The fields of a
record alias and the variants of a custom type stand on lines of their own.

## Main definitions

- `Frame.newline`: the start of a further line
- `Value.document`, `TypeAlias.document`, `CustomType.document`, `Entry.document`:
  the signatures
- `groupArgument`: a variant's argument in parentheses where it needs them

## Design notes

Every type is squashed before it is cut into arguments or fields, so no line break
of a type reaches the page: all breaks are those of `Frame.newline`.
-/

namespace PackageDocs

/-- The start of a further line. -/
def Frame.newline (frame : Frame) : Token :=
  .plain ('\n' :: List.replicate frame.indent ' ')

/-- The anchor of the name; an empty name has none. -/
def anchorDocument (name : Text) : Document :=
  if name.isEmpty then [] else [.anchor name]

-- ═════════════════════════════════════════════════════════════════════════════
-- Values
-- ═════════════════════════════════════════════════════════════════════════════

namespace Value

/-- The signature on one line. -/
def inlineText (v : Value) : Text :=
  Name.display v.name ++ " : ".toList ++ normalizeType v.type

/-- One line of a stacked signature: its marker, the gap behind it, its argument. -/
def argumentLine (scope : Scope) (frame : Frame) (marker gap : Text) (type : Text) : Document :=
  [frame.newline, .keyword marker, .plain gap] ++ scope.typeDocument type

/-- The lines of a stacked signature: a colon before the first argument and arrows
before the others, all of the same width. -/
def argumentLines (scope : Scope) (frame : Frame) : List Text → Document
  | [] => []
  | first :: rest =>
    argumentLine scope frame [':'] [' ', ' '] first ++
      rest.flatMap (argumentLine scope frame ['-', '>'] [' '])

/-- The signature of a value, inline if it is shorter than the frame is wide. -/
def document (scope : Scope) (frame : Frame) (v : Value) : Document :=
  let type := Text.squash v.type
  anchorDocument v.name ++
    if v.inlineText.length < frame.width then
      .keyword " : ".toList :: scope.typeDocument type
    else argumentLines scope frame (splitArguments type)

end Value

-- ═════════════════════════════════════════════════════════════════════════════
-- Types
-- ═════════════════════════════════════════════════════════════════════════════

/-- The head of a type's signature: the keyword, the name and the type parameters. -/
def typeHead (keyword name : Text) (args : List Text) : Document :=
  .keyword keyword :: anchorDocument name ++
    if args.isEmpty then [] else [.plain (' ' :: [' '].intercalate args)]

/-- The signature of a type alias, each field of a record on its own line. -/
def TypeAlias.document (scope : Scope) (frame : Frame) (a : TypeAlias) : Document :=
  let type := Text.squash a.type
  typeHead "type alias ".toList a.name a.args ++ [.plain [' '], .keyword ['=']] ++
    if type.head? = some '{' then
      (splitRecord type).flatMap fun field => frame.newline :: scope.typeDocument field
    else .plain [' '] :: scope.typeDocument type

/-- The argument of a variant, in parentheses unless it is a single word or starts
with a bracket of its own. -/
def groupArgument (arg : Text) : Text :=
  if arg.head? = some '(' ∨ arg.head? = some '{' ∨ ' ' ∉ arg then arg
  else '(' :: arg ++ [')']

/-- The line of one variant, led by its marker. -/
def Variant.document (scope : Scope) (frame : Frame) (marker : Text) (v : Variant) : Document :=
  [frame.newline, .keyword marker, .plain (' ' :: v.tag)] ++
    v.args.flatMap fun arg =>
      .plain [' '] :: scope.typeDocument (groupArgument (Text.squash arg))

/-- The lines of the variants: an equals sign before the first, bars before the
others. -/
def variantLines (scope : Scope) (frame : Frame) : List Variant → Document
  | [] => []
  | first :: rest =>
    first.document scope frame ['='] ++ rest.flatMap (Variant.document scope frame ['|'])

/-- The signature of a custom type, each variant on its own line. -/
def CustomType.document (scope : Scope) (frame : Frame) (t : CustomType) : Document :=
  typeHead "type ".toList t.name t.args ++ variantLines scope frame t.variants

/-- The signature of an entry. -/
def Entry.document (scope : Scope) (frame : Frame) : Entry → Document
  | .alias entry => entry.document scope frame
  | .custom entry => entry.document scope frame
  | .value entry => entry.document scope frame

end PackageDocs
