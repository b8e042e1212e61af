import Mathlib.Tactic.MkIffOfInductiveProp
import PackageDocs.Entry.Basic
import PackageDocs.Proofs.Json.Views

/-!
# The shape of package documentation

Which values document a package, and what they say. The shape of a value is a predicate on
it; what it says is read off it by a function that does not look at the shape, so the two
are independent of each other and of every way to decode the value.

## Main definitions

- `Json.IsAlias`, `Json.IsCustomType`, `Json.IsValue`, `Json.IsOperator`: the entries
- `Json.IsModule`, `Json.IsPackage`: modules, and packages of them
- `TypeAlias.ofData`, `CustomType.ofData`, `Value.ofData`, `ModuleDocs.ofData`: what the
  values say
- `Json.modules`: the modules of a package, as data
-/

namespace PackageDocs

namespace Json

-- ═════════════════════════════════════════════════════════════════════════════
-- Entries
-- ═════════════════════════════════════════════════════════════════════════════

/-- The shape of a type alias. -/
@[mk_iff]
structure IsAlias (data : Json) : Prop where
  object : data.IsObject
  name : (data.part "name").IsText
  comment : (data.part "comment").OrNull IsText
  args : (data.part "args").OrNull (IsListOf IsText)
  type : (data.part "type").IsText

/-- The shape of a variant: a list of its tag and the list of its arguments. -/
def IsVariant : Json → Prop
  | .arr [tag, args] => tag.IsText ∧ args.IsListOf IsText
  | _ => False

/-- The shape of a custom type. -/
@[mk_iff]
structure IsCustomType (data : Json) : Prop where
  object : data.IsObject
  name : (data.part "name").IsText
  comment : (data.part "comment").OrNull IsText
  args : (data.part "args").OrNull (IsListOf IsText)
  cases : (data.part "cases").OrNull (IsListOf IsVariant)

/-- The shape of a value. -/
@[mk_iff]
structure IsValue (data : Json) : Prop where
  object : data.IsObject
  name : (data.part "name").IsText
  comment : (data.part "comment").OrNull IsText
  type : (data.part "type").IsText
  associativity : (data.part "associativity").OrNull IsText
  precedence : (data.part "precedence").OrNull IsInteger

/-- The shape of an operator: a value with both parts of a fixity. -/
@[mk_iff]
structure IsOperator (data : Json) : Prop where
  value : data.IsValue
  associativity : (data.part "associativity").IsText
  precedence : (data.part "precedence").IsInteger

-- ═════════════════════════════════════════════════════════════════════════════
-- Modules and packages
-- ═════════════════════════════════════════════════════════════════════════════

/-- The custom types of a module: what `unions` holds if that key is there, even if it
holds null, and what `types` holds otherwise. -/
def customTypes (data : Json) : Json :=
  match field? "unions".toList data.fields with
  | some unions => unions
  | none => data.part "types"

/-- The shape of a module. -/
@[mk_iff]
structure IsModule (data : Json) : Prop where
  object : data.IsObject
  name : (data.part "name").IsText
  comment : (data.part "comment").OrNull IsText
  aliases : (data.part "aliases").OrNull (IsListOf IsAlias)
  customTypes : data.customTypes.OrNull (IsListOf IsCustomType)
  values : (data.part "values").OrNull (IsListOf IsValue)
  operators : (data.part "binops").OrNull (IsListOf IsOperator)

/-- The shape of a package: a list of modules, or an object that holds one. -/
def IsPackage (data : Json) : Prop :=
  data.IsListOf IsModule ∨ data.IsObject ∧ (data.part "modules").IsListOf IsModule

/-- The modules of a package. -/
def modules : Json → List Json
  | .arr items => items
  | data => (data.part "modules").items

/-- The precedence that a number or a truth value gives. -/
def precedence? : Json → Option Precedence
  | .int n => some (.level n)
  | .bool b => some (.flag b)
  | _ => none

instance : DecidablePred IsAlias := fun data => decidable_of_iff' _ (isAlias_iff data)

instance : DecidablePred IsVariant := fun data => by
  unfold IsVariant
  split <;> infer_instance

instance : DecidablePred IsCustomType := fun data => decidable_of_iff' _ (isCustomType_iff data)

instance : DecidablePred IsValue := fun data => decidable_of_iff' _ (isValue_iff data)

instance : DecidablePred IsOperator := fun data => decidable_of_iff' _ (isOperator_iff data)

instance : DecidablePred IsModule := fun data => decidable_of_iff' _ (isModule_iff data)

instance : DecidablePred IsPackage := fun data =>
  inferInstanceAs (Decidable (data.IsListOf IsModule ∨ _))

end Json

open Json

-- ═════════════════════════════════════════════════════════════════════════════
-- What the data says
-- ═════════════════════════════════════════════════════════════════════════════

def TypeAlias.ofData (data : Json) : TypeAlias where
  name := (data.part "name").text
  comment := (data.part "comment").text
  args := (data.part "args").items.map Json.text
  type := (data.part "type").text

def Variant.ofData : Json → Variant
  | .arr [tag, args] => { tag := tag.text, args := args.items.map Json.text }
  | _ => { tag := [] }

def CustomType.ofData (data : Json) : CustomType where
  name := (data.part "name").text
  comment := (data.part "comment").text
  args := (data.part "args").items.map Json.text
  variants := (data.part "cases").items.map Variant.ofData

def Value.ofData (data : Json) : Value where
  name := (data.part "name").text
  comment := (data.part "comment").text
  type := (data.part "type").text
  associativity := (data.part "associativity").text?
  precedence := (data.part "precedence").precedence?

/-- The operators of a module follow its other values. -/
def ModuleDocs.ofData (data : Json) : ModuleDocs where
  name := (data.part "name").text
  comment := (data.part "comment").text
  aliases := (data.part "aliases").items.map TypeAlias.ofData
  customs := data.customTypes.items.map CustomType.ofData
  values := (data.part "values").items.map Value.ofData ++
    (data.part "binops").items.map Value.ofData

end PackageDocs
