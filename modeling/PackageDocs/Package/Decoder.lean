import PackageDocs.Package.Fault

/-!
# Decoding data

A decoder turns a value into a part of the documentation or tells the first fault.
The decoders here are the pieces that the documents are decoded with.

## Main definitions

- `Decoder`: a function from values
- `Decoder.text`, `Decoder.integer`, `Decoder.list`, `Decoder.object`: values of one
  kind
- `Decoder.required`, `Decoder.optional`: fields of an object
- `Decoder.each`: the items of a list

## Design notes

An optional field that is null counts as absent. The order of the checks is part of
the format: of two faults the one that is checked first is told.
-/

namespace PackageDocs

/-- What decoding yields: a result or the first fault. -/
abbrev Decoded (α : Type) := Except Fault α

/-- A way to read values. -/
abbrev Decoder (α : Type) := Json → Decoded α

namespace Decoder

/-- The fault of a value that is not of the expected kind. -/
def wrongKind {α : Type} (expected : Expected) (value : Json) : Decoded α :=
  .error { kind := .wrongKind expected value.kind }

/-- A text. -/
def text : Decoder Text
  | .str t => .ok t
  | value => wrongKind .text value

/-- The items of a list. -/
def list : Decoder (List Json)
  | .arr items => .ok items
  | value => wrongKind .list value

/-- The fields of an object. -/
def object : Decoder (List Json.Field)
  | .obj fields => .ok fields
  | value => wrongKind .object value

/-- A text among others of its kind; the message of its fault names no other kind. -/
def textItem : Decoder Text
  | .str t => .ok t
  | _ => .error { kind := .notText }

/-- A result below a step: a fault in it is seen from one step further out. -/
def below {α : Type} (step : PathStep) (result : Decoded α) : Decoded α :=
  result.mapError (Fault.under step)

/-- The field `key`, which has to be there. -/
def required {α : Type} (key : String) (decoder : Decoder α) (fields : List Json.Field) :
    Decoded α :=
  match Json.field? key.toList fields with
  | none => .error { kind := .missingField key.toList }
  | some value => below (.key key.toList) (decoder value)

/-- The field `key`, or `default` when it is absent or null. -/
def optional {α : Type} (key : String) (default : α) (decoder : Decoder α)
    (fields : List Json.Field) : Decoded α :=
  match Json.field? key.toList fields with
  | none => .ok default
  | some .null => .ok default
  | some value => below (.key key.toList) (decoder value)

/-- The values, the first of which stands at index `i`. -/
def eachFrom {α : Type} (i : Nat) (decoder : Decoder α) : List Json → Decoded (List α)
  | [] => .ok []
  | value :: rest => do
    let first ← below (.index i) (decoder value)
    let later ← eachFrom (i + 1) decoder rest
    return first :: later

/-- All items of a list. -/
def each {α : Type} (decoder : Decoder α) (items : List Json) : Decoded (List α) :=
  eachFrom 0 decoder items

end Decoder

end PackageDocs
