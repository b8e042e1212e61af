import PackageDocs.Text.Basic

/-!
# Entries of a module

A module documents type aliases, custom types and values. All of them have a name
and a comment; a value may be an operator with an associativity and a precedence.

## Main definitions

- `TypeAlias`, `CustomType`, `Value`: the three kinds of entries
- `Entry`: any of them
- `Precedence`: how tightly an operator binds
- `ModuleDocs`: the documentation of one module
-/

namespace PackageDocs

/-- A name for a type. -/
structure TypeAlias where
  name : Text
  comment : Text := []
  args : List Text := []
  type : Text
  deriving Repr, DecidableEq

/-- One way to build a value of a custom type. -/
structure Variant where
  tag : Text
  args : List Text := []
  deriving Repr, DecidableEq

/-- A type with variants. -/
structure CustomType where
  name : Text
  comment : Text := []
  args : List Text := []
  variants : List Variant := []
  deriving Repr, DecidableEq

/-- How tightly an operator binds. Documents may give a truth value where a number
belongs; it is kept and shown as it is. -/
inductive Precedence where
  | level (n : Int)
  | flag (b : Bool)
  deriving Repr, DecidableEq

/-- A function, a constant or an operator. -/
structure Value where
  name : Text
  comment : Text := []
  type : Text
  associativity : Option Text := none
  precedence : Option Precedence := none
  deriving Repr, DecidableEq

/-- Anything that a module documents under a name. -/
inductive Entry where
  | alias (entry : TypeAlias)
  | custom (entry : CustomType)
  | value (entry : Value)
  deriving Repr, DecidableEq

namespace Entry

/-- The name the entry is documented under. -/
def name : Entry → Text
  | .alias entry => entry.name
  | .custom entry => entry.name
  | .value entry => entry.name

/-- What the entry's author says about it. -/
def comment : Entry → Text
  | .alias entry => entry.comment
  | .custom entry => entry.comment
  | .value entry => entry.comment

end Entry

/-- The documentation of one module. -/
structure ModuleDocs where
  name : Text
  comment : Text := []
  aliases : List TypeAlias := []
  customs : List CustomType := []
  values : List Value := []
  deriving Repr, DecidableEq

namespace ModuleDocs

/-- All entries: the aliases, then the custom types, then the values. -/
def entries (m : ModuleDocs) : List Entry :=
  m.aliases.map .alias ++ m.customs.map .custom ++ m.values.map .value

/-- The names of the documented types, the ones that types may refer to. -/
def typeNames (m : ModuleDocs) : List Text :=
  m.aliases.map TypeAlias.name ++ m.customs.map CustomType.name

end ModuleDocs

end PackageDocs
