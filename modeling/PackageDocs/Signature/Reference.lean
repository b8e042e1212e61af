import PackageDocs.Signature.Word

/-!
# References inside a type

A word of a type may refer to a type documented on the same page. It does so when it
carries no qualifier, or the page's own module as its qualifier, and the identifier
behind its opening brackets is one of the documented names.

## Main definitions

- `Scope`: the documented names and the module they belong to
- `Scope.isNameStart`, `Scope.isNameChar`: the characters of identifiers
- `Scope.reference?`: a word cut around the name it refers to
- `Scope.referenceOffsets`: where the names stand in the normalized type

## Design notes

Whether a word refers to the page is decided on the word with its qualifier, before
that is dropped; afterwards `Other.Point` and `Point` look alike. What is kept of the
decision is the offset that the name has among the words without qualifiers.
-/

namespace PackageDocs

/-- What a type is read against: the names that are documented, and the module whose
name may qualify them. -/
structure Scope where
  names : List Text := []
  module : Option Text := none
  deriving Repr, DecidableEq

namespace Scope

/-- The characters that an identifier may start with. -/
def isNameStart (c : Char) : Bool :=
  c.isAlpha || c == '_'

/-- The characters of an identifier after its first. -/
def isNameChar (c : Char) : Bool :=
  c.isAlphanum || c == '_' || c == '\''

/-- The identifier at the start of the text, when it is a documented name. Names of
types start with one of the letters `A` to `Z`. -/
def nameAtStart? (scope : Scope) (t : Text) : Option Text :=
  match t with
  | [] => none
  | c :: _ =>
    let name := t.takeWhile isNameChar
    if c.isUpper && scope.names.contains name then some name else none

/-- Words with this qualifier speak of the documented names. -/
def admits (scope : Scope) (qualifier : Text) : Bool :=
  qualifier.isEmpty || scope.module == some qualifier

/-- The name that the word refers to, if it refers to a documented one, with the text
shown before and after it. -/
def reference? (scope : Scope) (word : Text) : Option (Text × Text × Text) :=
  if scope.admits (Word.qualifier word) then
    let shown := Word.dropQualifier word
    let before := Word.openers shown
    let rest := Word.body shown
    (scope.nameAtStart? rest).map fun name => (before, name, rest.drop name.length)
  else none

/-- The offsets of the names that the words refer to, when the words are shown from
`offset` on without their qualifiers and with single spaces between them. -/
def offsetsFrom (scope : Scope) (offset : Nat) : List Text → List Nat
  | [] => []
  | word :: rest =>
    let later := scope.offsetsFrom (offset + (Word.dropQualifier word).length + 1) rest
    match scope.reference? word with
    | some (before, _, _) => (offset + before.length) :: later
    | none => later

/-- The offsets in the normalized type at which a name refers to the page. -/
def referenceOffsets (scope : Scope) (type : Text) : List Nat :=
  scope.offsetsFrom 0 (Text.words type)

end Scope

end PackageDocs
