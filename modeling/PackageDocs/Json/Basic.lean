import PackageDocs.Text.Basic

/-!
# Structured data

The values that a data file can hold. An object is a list of fields in the order of
the file; a key that is given twice keeps its first place and takes its last value.

## Main definitions

- `Json`: the values
- `Json.Field`, `Json.putField`, `Json.field?`: the fields of an object
- `Json.Kind`, `Json.kind`: what a value is, and the name for it in messages
-/

namespace PackageDocs

/-- A value of structured data. A number with a fraction or an exponent is kept as
it is written. -/
inductive Json where
  | null
  | bool (b : Bool)
  | int (n : Int)
  | float (literal : Text)
  | str (text : Text)
  | arr (items : List Json)
  | obj (fields : List (Text × Json))
  deriving Repr

namespace Json

/-- A key with its value. -/
abbrev Field := Text × Json

/-- The fields with `key` set to `value`, at its old place if it has one. -/
def putField (key : Text) (value : Json) : List Field → List Field
  | [] => [(key, value)]
  | (k, v) :: rest =>
    if k = key then (key, value) :: rest else (k, v) :: putField key value rest

/-- The value of a key. -/
def field? (key : Text) : List Field → Option Json
  | [] => none
  | (k, v) :: rest => if k = key then some v else field? key rest

/-- What a value is. -/
inductive Kind where
  | null
  | bool
  | int
  | float
  | str
  | list
  | dict
  deriving Repr, DecidableEq

/-- The kind's name in messages. -/
def Kind.name : Kind → Text
  | .null => "NoneType".toList
  | .bool => "bool".toList
  | .int => "int".toList
  | .float => "float".toList
  | .str => "str".toList
  | .list => "list".toList
  | .dict => "dict".toList

/-- The kind of the value. -/
def kind : Json → Kind
  | .null => .null
  | .bool _ => .bool
  | .int _ => .int
  | .float _ => .float
  | .str _ => .str
  | .arr _ => .list
  | .obj _ => .dict

end Json

end PackageDocs
