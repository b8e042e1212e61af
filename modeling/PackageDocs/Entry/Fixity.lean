import PackageDocs.Entry.Basic
import PackageDocs.Text.Integer

/-!
# Fixity of operators

A value with an associativity or a precedence is shown with the declaration that
gives it this fixity, for example `infixl 6`.

## Main definitions

- `Value.fixityKeyword`: the keyword for an associativity
- `Value.fixity`: the declaration, without the name
-/

namespace PackageDocs

/-- The precedence as it is written in a declaration. -/
def Precedence.text : Precedence → Text
  | .level n => Text.ofInt n
  | .flag true => "True".toList
  | .flag false => "False".toList

namespace Value

/-- The keyword for an associativity, in letters of either case. An absent or unknown
one is that of an operator that does not associate. -/
def fixityKeyword (associativity : Option Text) : Text :=
  let side := (associativity.getD []).map Char.toLower
  if side = "left".toList then "infixl".toList
  else if side = "right".toList then "infixr".toList
  else "infix".toList

/-- The fixity declaration, when the value has an associativity or a precedence. -/
def fixity (v : Value) : Option Text :=
  match v.associativity, v.precedence with
  | none, none => none
  | side, none => some (fixityKeyword side)
  | side, some precedence => some (fixityKeyword side ++ ' ' :: precedence.text)

end Value

end PackageDocs
