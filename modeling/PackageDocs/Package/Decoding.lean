import PackageDocs.Entry.Basic
import PackageDocs.Package.Decoder

/-!
# Package documentation

The documentation of a package is a list of modules, or an object that holds the list
under `modules`. Operators are listed apart from the other values and must have a
fixity.

## Main definitions

- `Decoder.typeAlias`, `Decoder.customType`, `Decoder.value`, `Decoder.operator`: the
  entries
- `Decoder.moduleDocs`: a module
- `decodePackage`: all modules of a package
-/

namespace PackageDocs

namespace Decoder

-- ═════════════════════════════════════════════════════════════════════════════
-- Entries
-- ═════════════════════════════════════════════════════════════════════════════

/-- The texts under `key`, none when the field is absent. -/
def texts (key : String) (fields : List Json.Field) : Decoded (List Text) := do
  let items ← optional key [] list fields
  below (.key key.toList) (each textItem items)

/-- A precedence: a number, or a truth value, which counts as one. -/
def precedence : Decoder Precedence
  | .int n => .ok (.level n)
  | .bool b => .ok (.flag b)
  | v => wrongKind .integer v

/-- A type alias. -/
def typeAlias : Decoder TypeAlias := fun data => do
  let fields ← object data
  let name ← required "name" text fields
  let comment ← optional "comment" [] text fields
  let args ← texts "args" fields
  let type ← required "type" text fields
  return { name, comment, args, type }

/-- A variant: its tag and the list of its arguments. -/
def variant : Decoder Variant
  | .arr [.str tag, .arr types] => do
    let args ← below (.index 1) (each textItem types)
    return { tag, args }
  | _ => .error { kind := .notVariant }

/-- A custom type. -/
def customType : Decoder CustomType := fun data => do
  let fields ← object data
  let cases ← optional "cases" [] list fields
  let name ← required "name" text fields
  let comment ← optional "comment" [] text fields
  let args ← texts "args" fields
  let variants ← below (.key "cases".toList) (each variant cases)
  return { name, comment, args, variants }

/-- A value with the fixity that has been read before. -/
def valueWith (associativity : Option Text) (precedence : Option Precedence)
    (fields : List Json.Field) : Decoded Value := do
  let name ← required "name" text fields
  let comment ← optional "comment" [] text fields
  let type ← required "type" text fields
  return { name, comment, type, associativity, precedence }

/-- A value, which may have a fixity. -/
def value : Decoder Value := fun data => do
  let fields ← object data
  let associativity ← optional "associativity" none (fun v => some <$> text v) fields
  let level ← optional "precedence" none (fun v => some <$> precedence v) fields
  valueWith associativity level fields

/-- An operator, which must have a fixity. -/
def operator : Decoder Value := fun data => do
  let fields ← object data
  let associativity ← required "associativity" text fields
  let level ← required "precedence" precedence fields
  valueWith (some associativity) (some level) fields

-- ═════════════════════════════════════════════════════════════════════════════
-- Modules
-- ═════════════════════════════════════════════════════════════════════════════

/-- The key of the custom types: `unions` when it is there, and `types` otherwise. -/
def customKey (fields : List Json.Field) : String :=
  if (Json.field? "unions".toList fields).isSome then "unions" else "types"

/-- A module. The four lists are known to be lists before anything else is read. -/
def moduleDocs : Decoder ModuleDocs := fun data => do
  let fields ← object data
  let key := customKey fields
  let aliasItems ← optional "aliases" [] list fields
  let customItems ← optional key [] list fields
  let valueItems ← optional "values" [] list fields
  let operatorItems ← optional "binops" [] list fields
  let name ← required "name" text fields
  let comment ← optional "comment" [] text fields
  let aliases ← below (.key "aliases".toList) (each typeAlias aliasItems)
  let customs ← below (.key key.toList) (each customType customItems)
  let values ← below (.key "values".toList) (each value valueItems)
  let operators ← below (.key "binops".toList) (each operator operatorItems)
  return { name, comment, aliases, customs, values := values ++ operators }

end Decoder

-- ═════════════════════════════════════════════════════════════════════════════
-- Packages
-- ═════════════════════════════════════════════════════════════════════════════

/-- The modules of a package, not decoded yet. -/
def packageItems? : Json → Option (List Json)
  | .arr items => some items
  | .obj fields =>
    match Json.field? "modules".toList fields with
    | some (.arr items) => some items
    | _ => none
  | _ => none

/-- The modules of a package. -/
def decodePackage (data : Json) : Except DecodeError (List ModuleDocs) :=
  match packageItems? data with
  | none => .error .noModules
  | some items => (Decoder.each Decoder.moduleDocs items).mapError .fault

end PackageDocs
