import PackageDocs.Json.Basic

/-!
# Views of structured data

What a value holds, read without asking whether it is of the right kind: a value of
another kind holds nothing. A key that is absent is read as null.

## Main definitions

- `Json.fields`, `Json.items`, `Json.text?`, `Json.text`: what an object, a list or a text holds
- `Json.part`: the value under a key
- `Json.IsNull`, `Json.IsText`, `Json.IsInteger`, `Json.IsObject`: values of one kind
- `Json.IsListOf`, `Json.OrNull`: lists of such values, values that may be left out
-/

namespace PackageDocs

namespace Json

/-- The fields of an object. -/
def fields : Json → List Field
  | .obj fields => fields
  | _ => []

/-- The items of a list. -/
def items : Json → List Json
  | .arr items => items
  | _ => []

/-- The characters of a text, if the value is a text. -/
def text? : Json → Option Text
  | .str t => some t
  | _ => none

/-- The characters of a text. -/
def text (data : Json) : Text :=
  data.text?.getD []

/-- The value under the key among the fields, null when there is none. -/
def valueOf (key : String) (fields : List Field) : Json :=
  (field? key.toList fields).getD .null

/-- The value under the key of an object, null when there is none. -/
def part (key : String) (data : Json) : Json :=
  valueOf key data.fields

-- ═════════════════════════════════════════════════════════════════════════════
-- Kinds of values
-- ═════════════════════════════════════════════════════════════════════════════

def IsNull (data : Json) : Prop := data.kind = .null

def IsText (data : Json) : Prop := data.kind = .str

def IsObject (data : Json) : Prop := data.kind = .dict

/-- A truth value counts as an integer. -/
def IsInteger (data : Json) : Prop := data.kind = .int ∨ data.kind = .bool

/-- A list all of whose items satisfy `p`. -/
def IsListOf (p : Json → Prop) (data : Json) : Prop :=
  data.kind = .list ∧ ∀ item ∈ data.items, p item

/-- A value that may be left out, by its absence or by null. -/
def OrNull (p : Json → Prop) (data : Json) : Prop :=
  data.IsNull ∨ p data

instance : DecidablePred IsNull := fun data => inferInstanceAs (Decidable (data.kind = .null))

instance : DecidablePred IsText := fun data => inferInstanceAs (Decidable (data.kind = .str))

instance : DecidablePred IsObject := fun data => inferInstanceAs (Decidable (data.kind = .dict))

instance : DecidablePred IsInteger := fun data =>
  inferInstanceAs (Decidable (data.kind = .int ∨ data.kind = .bool))

instance (p : Json → Prop) [DecidablePred p] : DecidablePred (IsListOf p) := fun data =>
  inferInstanceAs (Decidable (data.kind = .list ∧ ∀ item ∈ data.items, p item))

instance (p : Json → Prop) [DecidablePred p] : DecidablePred (OrNull p) := fun data =>
  inferInstanceAs (Decidable (data.IsNull ∨ p data))

end Json

end PackageDocs
