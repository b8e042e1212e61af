import PackageDocs.Package.Decoding
import PackageDocs.Proofs.Except
import PackageDocs.Proofs.Json.Paths

/-!
# Null and absence

A key that may be left out may as well hold null: deleting it then changes neither the
module that is decoded nor the fault that is told, wherever in the module the object
stands. One key is different. While `unions` is there, even with null, nothing under
`types` is looked at.

## Main definitions

- `Json.MayOmit`: a key is not required in an object of a module
- `Decoder.SameFields`: fields that differ in absent and null values alone
- `Decoder.ReadAlike`: two readings of a list that come to the same

## Main results

- `Decoder.moduleDocs_congr`: what a module is decoded from
- `Decoder.moduleDocs_without_null`: deleting a key that holds null
-/

namespace PackageDocs

open Json

namespace Json

/-- The key is none of the required ones. -/
def IsOptional (required : List String) (key : Text) : Prop :=
  ∀ name ∈ required, key ≠ name.toList

instance (required : List String) (key : Text) : Decidable (IsOptional required key) :=
  inferInstanceAs (Decidable (∀ name ∈ required, key ≠ name.toList))

/-- The object at the end of the path is a module or one of its entries, and may lack the
key. -/
inductive MayOmit : List PathStep → Text → Prop
  | module {key : Text} (h : IsOptional ["name"] key) : MayOmit [] key
  | alias {key : Text} (i : Nat) (h : IsOptional ["name", "type"] key) :
      MayOmit [.key "aliases".toList, .index i] key
  | custom {key : Text} (i : Nat) {list : String} (hlist : list = "types" ∨ list = "unions")
      (h : IsOptional ["name"] key) : MayOmit [.key list.toList, .index i] key
  | value {key : Text} (i : Nat) (h : IsOptional ["name", "type"] key) :
      MayOmit [.key "values".toList, .index i] key
  | operator {key : Text} (i : Nat)
      (h : IsOptional ["name", "type", "associativity", "precedence"] key) :
      MayOmit [.key "binops".toList, .index i] key

end Json

namespace Decoder

-- ═════════════════════════════════════════════════════════════════════════════
-- One object
-- ═════════════════════════════════════════════════════════════════════════════

/-- The fields hold the same under the required keys, and elsewhere as well, if null counts
as absent. -/
structure SameFields (required : List String) (fields' fields : List Field) : Prop where
  required : ∀ key ∈ required, field? key.toList fields' = field? key.toList fields
  value : ∀ key, valueOf key fields' = valueOf key fields

variable {α : Type} {decoder : Decoder α} {fields fields' : List Field}

theorem sameFields_dropField {required : List String} {key : Text} (h : IsOptional required key)
    (hnull : field? key fields = some .null) :
    SameFields required (dropField key fields) fields where
  required := fun name hname => field?_dropField_of_ne (h name hname).symm
  value := valueOf_dropField hnull

theorem required_congr {key : String} (h : field? key.toList fields' = field? key.toList fields) :
    required key decoder fields' = required key decoder fields := by
  rw [required, required, h]

/-- An optional field depends on its value alone, which is null where the key is absent. -/
theorem optional_eq (key : String) (default : α) (decoder : Decoder α) (fields : List Field) :
    optional key default decoder fields =
      if (valueOf key fields).IsNull then .ok default
      else below (.key key.toList) (decoder (valueOf key fields)) := by
  rw [optional, valueOf]
  cases field? key.toList fields with
  | none => rfl
  | some value => cases value <;> rfl

theorem optional_congr {key : String} {default : α} (h : valueOf key fields' = valueOf key fields) :
    optional key default decoder fields' = optional key default decoder fields := by
  rw [optional_eq, optional_eq, h]

theorem texts_congr {key : String} (h : valueOf key fields' = valueOf key fields) :
    texts key fields' = texts key fields := by
  rw [texts, texts, optional_congr h]

theorem typeAlias_congr (h : SameFields ["name", "type"] fields' fields) :
    typeAlias (.obj fields') = typeAlias (.obj fields) := by
  have hname := h.required "name" (by simp)
  have htype := h.required "type" (by simp)
  simp only [typeAlias, object, ok_bind, required_congr hname, required_congr htype,
    optional_congr (h.value "comment"), texts_congr (h.value "args")]

theorem customType_congr (h : SameFields ["name"] fields' fields) :
    customType (.obj fields') = customType (.obj fields) := by
  have hname := h.required "name" (by simp)
  simp only [customType, object, ok_bind, required_congr hname, optional_congr (h.value "comment"),
    optional_congr (h.value "cases"), texts_congr (h.value "args")]

theorem valueWith_congr (h : SameFields ["name", "type"] fields' fields)
    (associativity : Option Text) (precedence : Option Precedence) :
    valueWith associativity precedence fields' = valueWith associativity precedence fields := by
  have hname := h.required "name" (by simp)
  have htype := h.required "type" (by simp)
  simp only [valueWith, required_congr hname, required_congr htype,
    optional_congr (h.value "comment")]

theorem value_congr (h : SameFields ["name", "type"] fields' fields) :
    value (.obj fields') = value (.obj fields) := by
  simp only [value, object, ok_bind, optional_congr (h.value "associativity"),
    optional_congr (h.value "precedence"), valueWith_congr h]

theorem operator_congr
    (h : SameFields ["name", "type", "associativity", "precedence"] fields' fields) :
    operator (.obj fields') = operator (.obj fields) := by
  have hside := h.required "associativity" (by simp)
  have hlevel := h.required "precedence" (by simp)
  have hvalue : SameFields ["name", "type"] fields' fields :=
    ⟨fun key hkey => h.required key (List.mem_append_left ["associativity", "precedence"] hkey),
      h.value⟩
  simp only [operator, object, ok_bind, required_congr hside, required_congr hlevel,
    valueWith_congr hvalue]

/-- The decoder yields the same for an object without a key that holds null. -/
def Ignores (decoder : Decoder α) (key : Text) : Prop :=
  ∀ data : Json, data.at? [.key key] = some .null → decoder (data.without key) = decoder data

/-- A decoder that reads no required key but these ignores every other key that holds null. -/
theorem ignores_of_congr {required : List String} {key : Text} (h : IsOptional required key)
    (hcongr : ∀ fields' fields, SameFields required fields' fields →
      decoder (.obj fields') = decoder (.obj fields)) : Ignores decoder key := by
  intro data hnull
  cases data with
  | obj fields =>
    have hfield : field? key fields = some .null := by simpa [at?, Json.fields] using hnull
    exact hcongr _ _ (sameFields_dropField h hfield)
  | _ => rfl

-- ═════════════════════════════════════════════════════════════════════════════
-- Lists of objects
-- ═════════════════════════════════════════════════════════════════════════════

theorem eachFrom_modify (n i : Nat) {items : List Json} {edit : Json → Json}
    (h : ∀ item, items[i]? = some item → decoder (edit item) = decoder item) :
    eachFrom n decoder (items.modify i edit) = eachFrom n decoder items := by
  induction items generalizing n i with
  | nil => rw [List.modify_nil]
  | cons item rest ih =>
    cases i with
    | zero =>
      rw [List.modify_zero_cons, eachFrom, eachFrom, h item rfl]
    | succ i =>
      rw [List.modify_succ_cons, eachFrom, eachFrom, ih (n + 1) i h]

/-- Two readings of a list come to the same: the same fault, or items that are decoded to
the same below the keys of the lists. -/
inductive ReadAlike (decoder : Decoder α) (key' key : String) :
    Decoded (List Json) → Decoded (List Json) → Prop
  | fault (fault : Fault) : ReadAlike decoder key' key (.error fault) (.error fault)
  | items {items' items : List Json}
      (h : below (.key key'.toList) (each decoder items') =
        below (.key key.toList) (each decoder items)) :
      ReadAlike decoder key' key (.ok items') (.ok items)

theorem ReadAlike.of_eq {key : String} {reading' reading : Decoded (List Json)}
    (h : reading' = reading) : ReadAlike decoder key key reading' reading := by
  subst h
  cases reading' with
  | error fault => exact .fault fault
  | ok items => exact .items rfl

/-- An edit of one item is not noticed if the item decodes to the same. -/
theorem readAlike_editField (key : String) (name : Text) (i : Nat) (edit : Json → Json)
    (h : key.toList = name → ∀ item, (valueOf key fields).items[i]? = some item →
      decoder (edit item) = decoder item) :
    ReadAlike decoder key key
      (optional key [] list (editField name (editAt edit [.index i]) fields))
      (optional key [] list fields) := by
  by_cases hkey : key.toList = name
  · have hfield : field? key.toList (editField name (editAt edit [.index i]) fields) =
        (field? key.toList fields).map (editAt edit [.index i]) := by
      rw [field?_editField, if_pos hkey]
    have hitem := h hkey
    rw [valueOf] at hitem
    rw [optional, optional, hfield]
    cases hvalue : field? key.toList fields with
    | none => exact .of_eq rfl
    | some value =>
      rw [hvalue] at hitem
      cases value with
      | arr items => exact .items (congrArg _ (eachFrom_modify 0 i hitem))
      | _ => exact .of_eq rfl
  · apply ReadAlike.of_eq
    apply optional_congr
    rw [valueOf, valueOf, field?_editField, if_neg hkey]

-- ═════════════════════════════════════════════════════════════════════════════
-- Modules
-- ═════════════════════════════════════════════════════════════════════════════

/-- What is decoded of a module depends on its name, its comment and its four lists. -/
theorem moduleDocs_congr
    (hname : field? "name".toList fields' = field? "name".toList fields)
    (hcomment : valueOf "comment" fields' = valueOf "comment" fields)
    (haliases : ReadAlike typeAlias "aliases" "aliases"
      (optional "aliases" [] list fields') (optional "aliases" [] list fields))
    (hcustoms : ReadAlike customType (customKey fields') (customKey fields)
      (optional (customKey fields') [] list fields') (optional (customKey fields) [] list fields))
    (hvalues : ReadAlike value "values" "values"
      (optional "values" [] list fields') (optional "values" [] list fields))
    (hoperators : ReadAlike operator "binops" "binops"
      (optional "binops" [] list fields') (optional "binops" [] list fields)) :
    moduleDocs (.obj fields') = moduleDocs (.obj fields) := by
  simp only [moduleDocs, object, ok_bind, required_congr hname, optional_congr hcomment]
  -- The lists are read before anything else, so the first fault among them is the outcome.
  generalize optional "aliases" [] list fields' = aliases', optional "aliases" [] list fields =
    aliases at haliases ⊢
  generalize optional (customKey fields') [] list fields' = customs',
    optional (customKey fields) [] list fields = customs at hcustoms ⊢
  generalize optional "values" [] list fields' = values', optional "values" [] list fields =
    values at hvalues ⊢
  generalize optional "binops" [] list fields' = operators', optional "binops" [] list fields =
    operators at hoperators ⊢
  cases haliases with
  | fault => rfl
  | items haliases =>
    cases hcustoms with
    | fault => rfl
    | items hcustoms =>
      cases hvalues with
      | fault => rfl
      | items hvalues =>
        cases hoperators with
        | fault => rfl
        | items hoperators =>
          simp only [ok_bind, haliases, hcustoms, hvalues, hoperators]

theorem customKey_eq_or (fields : List Field) :
    customKey fields = "types" ∨ customKey fields = "unions" := by
  rw [customKey]
  split
  · exact .inr rfl
  · exact .inl rfl

theorem customKey_congr
    (h : (field? "unions".toList fields').isSome = (field? "unions".toList fields).isSome) :
    customKey fields' = customKey fields := by
  rw [customKey, customKey, h]

/-- Without `unions` the custom types are read under `types`, where nothing stands. -/
theorem readAlike_dropField_unions
    (hnull : field? "unions".toList fields = some .null)
    (htypes : valueOf "types" fields = .null ∨ valueOf "types" fields = .arr []) :
    ReadAlike customType (customKey (dropField "unions".toList fields)) (customKey fields)
      (optional (customKey (dropField "unions".toList fields)) [] list
        (dropField "unions".toList fields))
      (optional (customKey fields) [] list fields) := by
  have hkey' : customKey (dropField "unions".toList fields) = "types" := by
    rw [customKey, field?_dropField_self]
    rfl
  have hkey : customKey fields = "unions" := by
    rw [customKey, hnull]
    rfl
  have hitems' : optional "types" [] list (dropField "unions".toList fields) = .ok [] := by
    rw [optional_eq, valueOf_dropField hnull]
    rcases htypes with htypes | htypes <;> rw [htypes] <;> rfl
  have hitems : optional "unions" [] list fields = .ok [] := by
    rw [optional_eq, valueOf, hnull]
    rfl
  rw [hkey', hkey, hitems', hitems]
  exact .items rfl

theorem moduleDocs_without {data : Json} {key : Text} (hkey : IsOptional ["name"] key)
    (hnull : data.at? [.key key] = some .null)
    (hunions : key = "unions".toList →
      data.part "types" = .null ∨ data.part "types" = .arr []) :
    moduleDocs (data.without key) = moduleDocs data := by
  cases data with
  | obj fields =>
    have hfield : field? key fields = some .null := by simpa [at?, Json.fields] using hnull
    have hsame := sameFields_dropField hkey hfield
    have hlist : ∀ name, optional name [] list (dropField key fields) =
        optional name [] list fields := fun name => optional_congr (hsame.value name)
    refine moduleDocs_congr (hsame.required "name" (by simp)) (hsame.value "comment")
      (.of_eq (hlist "aliases")) ?_ (.of_eq (hlist "values")) (.of_eq (hlist "binops"))
    by_cases h : key = "unions".toList
    · subst h
      exact readAlike_dropField_unions hfield (hunions rfl)
    · have hsome : customKey (dropField key fields) = customKey fields := by
        apply customKey_congr
        rw [field?_dropField_of_ne (Ne.symm h)]
      rw [hsome]
      exact .of_eq (hlist (customKey fields))
  | _ => rfl

/-- A list is read alike after the deletion in one of its items, if it is another list or
the decoder of its items ignores the key. -/
theorem readAlike_without {name key : Text} {i : Nat}
    (hnull : (Json.obj fields).at? [.key name, .index i, .key key] = some .null) (list' : String)
    (h : list'.toList = name → Ignores decoder key) :
    ReadAlike decoder list' list'
      (optional list' [] list (editField name (editAt (without key) [.index i]) fields))
      (optional list' [] list fields) := by
  apply readAlike_editField
  rintro rfl item hitem
  apply h rfl
  obtain ⟨value, hvalue, hat⟩ := Option.bind_eq_some_iff.1 hnull
  obtain ⟨found, hfound, hfield⟩ := Option.bind_eq_some_iff.1 hat
  have hfirst : field? list'.toList fields = some value := hvalue
  have hlist : valueOf list' fields = value := by
    rw [valueOf, hfirst, Option.getD_some]
  rw [hlist, hfound] at hitem
  rw [← Option.some.inj hitem]
  exact hfield

theorem moduleDocs_without_entry {data : Json} {name key : Text} {i : Nat}
    (hname : IsOptional ["name", "comment"] name)
    (hnull : data.at? [.key name, .index i, .key key] = some .null)
    (haliases : "aliases".toList = name → Ignores typeAlias key)
    (hcustoms : "types".toList = name ∨ "unions".toList = name → Ignores customType key)
    (hvalues : "values".toList = name → Ignores value key)
    (hoperators : "binops".toList = name → Ignores operator key) :
    moduleDocs (data.editAt (without key) [.key name, .index i]) = moduleDocs data := by
  cases data with
  | obj fields =>
    have hother : ∀ other ∈ ["name", "comment"],
        field? other.toList (editField name (editAt (without key) [.index i]) fields) =
          field? other.toList fields := by
      intro other hmem
      rw [field?_editField, if_neg (hname other hmem).symm]
    have hkey : customKey (editField name (editAt (without key) [.index i]) fields) =
        customKey fields := by
      apply customKey_congr
      rw [field?_editField]
      split
      · exact Option.isSome_map
      · rfl
    have hcomment := congrArg (Option.getD · Json.null) (hother "comment" (by simp))
    refine moduleDocs_congr (hother "name" (by simp)) hcomment
      (readAlike_without hnull "aliases" haliases) ?_ (readAlike_without hnull "values" hvalues)
      (readAlike_without hnull "binops" hoperators)
    rw [hkey]
    apply readAlike_without hnull
    intro hlist
    rcases customKey_eq_or fields with htypes | hunions
    · exact hcustoms (.inl (htypes ▸ hlist))
    · exact hcustoms (.inr (hunions ▸ hlist))
  | _ => rfl

/-- **Null means absent.** A key that may be left out of a module, or of one of its entries,
may be deleted where it holds null: the module that is decoded stays the same, or the fault
that is told. Only `unions` may not be deleted, if then something comes to be read under
`types`. -/
theorem moduleDocs_without_null (data : Json) (path : List PathStep) (key : Text)
    (hkey : MayOmit path key) (hnull : data.at? (path ++ [.key key]) = some .null)
    (hunions : path = [] → key = "unions".toList →
      data.part "types" = .null ∨ data.part "types" = .arr []) :
    moduleDocs (data.editAt (without key) path) = moduleDocs data := by
  cases hkey with
  | module h => exact moduleDocs_without h hnull (hunions rfl)
  | «alias» i h =>
    refine moduleDocs_without_entry (by decide) hnull ?_ ?_ ?_ ?_
    · exact fun _ => ignores_of_congr h fun _ _ => typeAlias_congr
    all_goals exact fun hlist => absurd hlist (by decide)
  | @custom _ i list hlist h =>
    have hignores : Ignores customType key := ignores_of_congr h fun _ _ => customType_congr
    rcases hlist with rfl | rfl
    · refine moduleDocs_without_entry (by decide) hnull ?_ (fun _ => hignores) ?_ ?_
      all_goals exact fun hlist => absurd hlist (by decide)
    · refine moduleDocs_without_entry (by decide) hnull ?_ (fun _ => hignores) ?_ ?_
      all_goals exact fun hlist => absurd hlist (by decide)
  | value i h =>
    refine moduleDocs_without_entry (by decide) hnull ?_ ?_ ?_ ?_
    · exact fun hlist => absurd hlist (by decide)
    · exact fun hlist => absurd hlist (by decide)
    · exact fun _ => ignores_of_congr h fun _ _ => value_congr
    · exact fun hlist => absurd hlist (by decide)
  | operator i h =>
    refine moduleDocs_without_entry (by decide) hnull ?_ ?_ ?_ ?_
    · exact fun hlist => absurd hlist (by decide)
    · exact fun hlist => absurd hlist (by decide)
    · exact fun hlist => absurd hlist (by decide)
    · exact fun _ => ignores_of_congr h fun _ _ => operator_congr

/-- The variants of a custom type are left out; its comment is at fault before and after. -/
theorem moduleDocs_without_null_cases :
    let data : Json := .obj [("name".toList, .str "M".toList), ("unions".toList, .arr [
      .obj [("name".toList, .str "S".toList)],
      .obj [("cases".toList, .null), ("name".toList, .str "T".toList), ("comment".toList, .int 3)]])]
    let path : List PathStep := [.key "unions".toList, .index 1]
    MayOmit path "cases".toList ∧ data.at? (path ++ [.key "cases".toList]) = some .null ∧
      data.editAt (without "cases".toList) path =
        .obj [("name".toList, .str "M".toList), ("unions".toList, .arr [
          .obj [("name".toList, .str "S".toList)],
          .obj [("name".toList, .str "T".toList), ("comment".toList, .int 3)]])] ∧
      moduleDocs (data.editAt (without "cases".toList) path) =
        .error { steps := path ++ [.key "comment".toList], kind := .wrongKind .text .int } := by
  intro data path
  have hkey : MayOmit path "cases".toList := .custom 1 (.inr rfl) (by decide)
  have hnull : data.at? (path ++ [.key "cases".toList]) = some .null := rfl
  exact ⟨hkey, hnull, rfl, moduleDocs_without_null data path _ hkey hnull (by simp [path])⟩

/-- Without its `unions`, which hold null, the module gets the custom types under `types`. -/
theorem moduleDocs_without_unions_ne :
    let data : Json := .obj [("name".toList, .str "M".toList), ("unions".toList, .null),
      ("types".toList, .arr [.obj [("name".toList, .str "T".toList)]])]
    MayOmit [] "unions".toList ∧ data.at? [.key "unions".toList] = some .null ∧
      moduleDocs (data.editAt (without "unions".toList) []) ≠ moduleDocs data := by
  intro data
  have hdata : moduleDocs data = .ok { name := "M".toList } := rfl
  have hedited : moduleDocs (data.editAt (without "unions".toList) []) =
      .ok { name := "M".toList, customs := [{ name := "T".toList }] } := rfl
  refine ⟨.module (by decide), rfl, ?_⟩
  rw [hdata, hedited]
  intro h
  have hcustoms := congrArg ModuleDocs.customs (Except.ok.inj h)
  exact absurd hcustoms (by decide)

end Decoder

end PackageDocs
