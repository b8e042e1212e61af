import PackageDocs.Text.Alphanumeric

/-!
# Names of entries

A name is an identifier or an operator; an operator is shown in parentheses, as it
is written where it stands on its own.

## Main definitions

- `Name.isOperator`: the name starts like no identifier
- `Name.display`: the name as it is shown
- `Name.anchor`: where links to the name lead
-/

namespace PackageDocs

namespace Name

/-- An identifier starts with an alphanumeric character, an underscore or an
apostrophe; every other non-empty name is an operator. -/
def isOperator : Text → Bool
  | [] => false
  | c :: _ => !(Text.isAlphanumeric c || c == '_' || c == '\'')

/-- The name as it is shown: operators in parentheses. -/
def display (name : Text) : Text :=
  if isOperator name then '(' :: name ++ [')'] else name

/-- The target of links to the name. -/
def anchor (name : Text) : Text :=
  '#' :: name

end Name

end PackageDocs
