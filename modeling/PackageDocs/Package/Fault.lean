import PackageDocs.Json.Basic
import PackageDocs.Text.Integer

/-!
# Faults in package documentation

Documentation that does not have the expected shape is refused with the place and the
nature of its first fault.

## Main definitions

- `PathStep`: one step from a value to a part of it
- `FaultKind`: what may be wrong with a value
- `Fault`: a fault and the steps to it
- `Fault.message`: the message for a fault, below a given path
- `DecodeError`: why documentation was refused
-/

namespace PackageDocs

/-- One step from a value to a part of it. -/
inductive PathStep where
  | key (name : Text)
  | index (i : Nat)
  deriving Repr, DecidableEq

/-- The step as it is written in a path. -/
def PathStep.text : PathStep → Text
  | .key name => '.' :: name
  | .index i => '[' :: Text.ofNat i ++ [']']

/-- What a part of a document is expected to be. -/
inductive Expected where
  | object
  | list
  | text
  | integer
  deriving Repr, DecidableEq

/-- The expectation's name in messages. -/
def Expected.name : Expected → Text
  | .object => "object".toList
  | .list => "list".toList
  | .text => "str".toList
  | .integer => "int".toList

/-- What may be wrong with a value: an object lacks a field, it is of another kind than
expected, it is not the text it has to be, or it is not a variant. -/
inductive FaultKind where
  | missingField (key : Text)
  | wrongKind (expected : Expected) (found : Json.Kind)
  | notText
  | notVariant
  deriving Repr, DecidableEq

/-- The fault in words. -/
def FaultKind.text : FaultKind → Text
  | .missingField key => "missing field '".toList ++ key ++ "'".toList
  | .wrongKind expected found =>
    "expected ".toList ++ expected.name ++ ", got ".toList ++ found.name
  | .notText => "expected str".toList
  | .notVariant => "expected [tag, [types]]".toList

/-- A fault, and the steps that lead to the value at fault. -/
structure Fault where
  steps : List PathStep := []
  kind : FaultKind
  deriving Repr, DecidableEq

namespace Fault

/-- The fault seen from one step further out. -/
def under (step : PathStep) (fault : Fault) : Fault :=
  { fault with steps := step :: fault.steps }

/-- The message for a fault below `path`. -/
def message (path : Text) (fault : Fault) : Text :=
  path ++ fault.steps.flatMap PathStep.text ++ ": ".toList ++ fault.kind.text

end Fault

/-- Why documentation was refused: it is no list of modules, or a module is at fault. -/
inductive DecodeError where
  | noModules
  | fault (fault : Fault)
  deriving Repr, DecidableEq

/-- The message for a refused document; its root is written `$`. -/
def DecodeError.message : DecodeError → Text
  | .noModules =>
    ("Unsupported documentation JSON structure. " ++
      "Expected a list or \x7bmodules:[...]\x7d").toList
  | .fault f => f.message ['$']

end PackageDocs
