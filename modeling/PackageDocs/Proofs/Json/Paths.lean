import PackageDocs.Package.Fault
import PackageDocs.Proofs.Json.Views

/-!
# Places inside structured data

A path leads to a part of a value: through the fields of objects by their keys, through
the items of lists by their positions. The part may be looked up, and it may be changed
where it stands.

## Main definitions

- `Json.at?`: the part at the end of a path
- `Json.editAt`: the value with that part changed
- `Json.without`: an object without one of its keys

## Main results

- `Json.field?_editField`: a change under a key is seen under this key alone
- `Json.valueOf_dropField`: no value is lost with a key that holds null
-/

namespace PackageDocs

namespace Json

/-- The part at the end of the path, if the path leads anywhere. -/
def at? : List PathStep → Json → Option Json
  | [], data => some data
  | .key name :: path, data => (field? name data.fields).bind (at? path)
  | .index i :: path, data => data.items[i]?.bind (at? path)

/-- The fields with the value under the key changed. -/
def editField (name : Text) (edit : Json → Json) (fields : List Field) : List Field :=
  fields.map fun field => if field.1 = name then (name, edit field.2) else field

/-- The value with the part at the end of the path changed. -/
def editAt (edit : Json → Json) : List PathStep → Json → Json
  | [], data => edit data
  | .key name :: path, .obj fields => .obj (editField name (editAt edit path) fields)
  | .index i :: path, .arr items => .arr (items.modify i (editAt edit path))
  | _, data => data

/-- The fields without the key. -/
def dropField (key : Text) (fields : List Field) : List Field :=
  fields.filter fun field => field.1 != key

/-- The object without the key. -/
def without (key : Text) : Json → Json
  | .obj fields => .obj (dropField key fields)
  | data => data

variable {name key : Text} {fields : List Field}

theorem field?_editField (edit : Json → Json) :
    field? key (editField name edit fields) =
      if key = name then (field? key fields).map edit else field? key fields := by
  induction fields with
  | nil => simp [editField, field?]
  | cons field rest ih =>
    obtain ⟨k, v⟩ := field
    have hcons : editField name edit ((k, v) :: rest) =
        (if k = name then (name, edit v) else (k, v)) :: editField name edit rest := rfl
    rw [hcons]
    by_cases hk : k = name
    · subst hk
      by_cases hkey : key = k
      · simp [field?, hkey]
      · simp [field?, Ne.symm hkey, hkey, ih]
    · by_cases hkey : key = k
      · subst hkey
        simp [field?, hk]
      · simp [field?, hk, Ne.symm hkey, ih]

theorem field?_dropField_of_ne (h : name ≠ key) :
    field? name (dropField key fields) = field? name fields := by
  induction fields with
  | nil => rfl
  | cons field rest ih =>
    obtain ⟨k, v⟩ := field
    by_cases hk : k = key
    · subst hk
      rw [field?, if_neg (Ne.symm h), ← ih]
      simp [dropField]
    · have hcons : dropField key ((k, v) :: rest) = (k, v) :: dropField key rest := by
        simp [dropField, hk]
      rw [hcons, field?, field?, ih]

theorem field?_dropField_self : field? key (dropField key fields) = none := by
  induction fields with
  | nil => rfl
  | cons field rest ih =>
    obtain ⟨k, v⟩ := field
    by_cases hk : k = key
    · simpa [dropField, hk] using ih
    · have hcons : dropField key ((k, v) :: rest) = (k, v) :: dropField key rest := by
        simp [dropField, hk]
      rw [hcons, field?, if_neg hk, ih]

/-- A key that holds null says as much as no key. -/
theorem valueOf_dropField (hnull : field? key fields = some .null) (name : String) :
    valueOf name (dropField key fields) = valueOf name fields := by
  by_cases h : name.toList = key
  · subst h
    rw [valueOf, valueOf, field?_dropField_self, hnull]
    rfl
  · rw [valueOf, valueOf, field?_dropField_of_ne h]

end Json

end PackageDocs
