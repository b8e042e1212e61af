import PackageDocs.Package.Decoding
import PackageDocs.Proofs.Except
import PackageDocs.Proofs.Package.Shape

/-!
# Accepted documentation

Decoding accepts exactly the values that have the shape of package documentation, and
yields what they say. Every decoder is described the same way, by the shape that it
accepts and by what it reads off a value of that shape; the description of a decoder
follows from those of its parts.

## Main definitions

- `Decoder.Reads`: what a decoder accepts, and what it yields

## Main results

- `Decoder.Reads.required`, `Decoder.Reads.optional`, `Decoder.Reads.each`: fields and items
- `Decoder.reads_moduleDocs`: modules
- `decodePackage_accepts`: packages
-/

namespace PackageDocs

open Json

namespace Decoder

/-- The reader gives a result for the data of one shape and for no other, and the result
is the content of the data. -/
structure Reads {ι α : Type} (reader : ι → Decoded α) (shape : ι → Prop) (content : ι → α) :
    Prop where
  eq_ok_iff : ∀ {data result}, reader data = .ok result ↔ shape data ∧ result = content data

variable {α : Type} {decoder : Decoder α} {shape : Json → Prop} {content : Json → α}

-- ═════════════════════════════════════════════════════════════════════════════
-- Values of one kind
-- ═════════════════════════════════════════════════════════════════════════════

theorem reads_text : Reads text IsText Json.text where
  eq_ok_iff {data result} := by
    cases data <;> simp [text, wrongKind, IsText, kind, Json.text, text?, eq_comm]

theorem reads_textItem : Reads textItem IsText Json.text where
  eq_ok_iff {data result} := by
    cases data <;> simp [textItem, IsText, kind, Json.text, text?, eq_comm]

theorem reads_list : Reads list (fun data => data.kind = .list) items where
  eq_ok_iff {data result} := by
    cases data <;> simp [list, wrongKind, kind, items, eq_comm]

theorem reads_object : Reads object IsObject fields where
  eq_ok_iff {data result} := by
    cases data <;> simp [object, wrongKind, IsObject, kind, fields, eq_comm]

theorem reads_precedence :
    Reads precedence IsInteger fun data => data.precedence?.getD (.level 0) where
  eq_ok_iff {data result} := by
    cases data <;> simp [precedence, wrongKind, IsInteger, kind, precedence?, eq_comm]

theorem text?_eq_some {data : Json} (h : data.IsText) : data.text? = some data.text := by
  cases data <;> simp [IsText, kind, Json.text, text?] at h ⊢

theorem precedence?_eq_some {data : Json} (h : data.IsInteger) :
    data.precedence? = some (data.precedence?.getD (.level 0)) := by
  cases data <;> simp [IsInteger, kind, precedence?] at h ⊢

/-- What may be left out is told apart from everything that may be there. -/
theorem Reads.option (h : Reads decoder shape content) {content? : Json → Option α}
    (hcontent : ∀ {data}, shape data → content? data = some (content data)) :
    Reads (fun data => some <$> decoder data) shape content? where
  eq_ok_iff {data result} := by
    have hmap : (some <$> decoder data) = .ok result ↔
        ∃ a, decoder data = .ok a ∧ result = some a := by
      cases decoder data <;> simp [Functor.map, Except.map, eq_comm]
    rw [hmap]
    constructor
    · rintro ⟨a, ha, rfl⟩
      obtain ⟨hshape, rfl⟩ := h.eq_ok_iff.1 ha
      exact ⟨hshape, (hcontent hshape).symm⟩
    · rintro ⟨hshape, rfl⟩
      exact ⟨_, h.eq_ok_iff.2 ⟨hshape, rfl⟩, hcontent hshape⟩

-- ═════════════════════════════════════════════════════════════════════════════
-- Fields and items
-- ═════════════════════════════════════════════════════════════════════════════

theorem below_eq_ok_iff {step : PathStep} {x : Decoded α} {a : α} :
    below step x = .ok a ↔ x = .ok a :=
  mapError_eq_ok_iff

/-- Null is no value of the shape, so a required field has to be there. -/
theorem Reads.required (h : Reads decoder shape content) (hnull : ¬ shape .null) (key : String) :
    Reads (required key decoder) (fun fields => shape (valueOf key fields))
      (fun fields => content (valueOf key fields)) where
  eq_ok_iff {fields result} := by
    unfold Decoder.required valueOf
    cases field? key.toList fields with
    | none => simp [hnull]
    | some value => exact below_eq_ok_iff.trans h.eq_ok_iff

/-- The content of null stands for a field that is left out. -/
theorem Reads.optional (h : Reads decoder shape content) (key : String) {default : α}
    (hdefault : content .null = default) :
    Reads (optional key default decoder) (fun fields => (valueOf key fields).OrNull shape)
      (fun fields => content (valueOf key fields)) where
  eq_ok_iff {fields result} := by
    subst hdefault
    unfold Decoder.optional valueOf
    cases field? key.toList fields with
    | none => simp [OrNull, IsNull, kind, eq_comm]
    | some value =>
      by_cases hnull : value = .null
      · subst hnull
        simp [OrNull, IsNull, kind, eq_comm]
      · have hkind : ¬ value.IsNull := by
          cases value <;> simp_all [IsNull, kind]
        simp only [OrNull, hkind, Option.getD_some, false_or]
        exact below_eq_ok_iff.trans h.eq_ok_iff

theorem Reads.eachFrom (h : Reads decoder shape content) (i : Nat) :
    Reads (eachFrom i decoder) (fun values => ∀ value ∈ values, shape value)
      (List.map content) where
  eq_ok_iff {values result} := by
    induction values generalizing i result with
    | nil => simp [Decoder.eachFrom, eq_comm]
    | cons value values ih =>
      simp only [Decoder.eachFrom, bind_eq_ok_iff, below_eq_ok_iff, h.eq_ok_iff, ih, pure_eq_ok_iff,
        List.forall_mem_cons, List.map_cons]
      constructor
      · rintro ⟨first, ⟨hfirst, rfl⟩, later, ⟨hlater, rfl⟩, rfl⟩
        exact ⟨⟨hfirst, hlater⟩, rfl⟩
      · rintro ⟨⟨hfirst, hlater⟩, rfl⟩
        exact ⟨_, ⟨hfirst, rfl⟩, _, ⟨hlater, rfl⟩, rfl⟩

theorem Reads.each (h : Reads decoder shape content) :
    Reads (each decoder) (fun values => ∀ value ∈ values, shape value) (List.map content) :=
  h.eachFrom 0

-- ═════════════════════════════════════════════════════════════════════════════
-- Entries
-- ═════════════════════════════════════════════════════════════════════════════

theorem required_text_eq_ok_iff {key : String} {fields : List Field} {t : Text} :
    Decoder.required key text fields = .ok t ↔
      (valueOf key fields).IsText ∧ t = (valueOf key fields).text :=
  (reads_text.required (by simp [IsText, kind]) key).eq_ok_iff

theorem optional_text_eq_ok_iff {key : String} {fields : List Field} {t : Text} :
    Decoder.optional key [] text fields = .ok t ↔
      (valueOf key fields).OrNull IsText ∧ t = (valueOf key fields).text :=
  (reads_text.optional key rfl).eq_ok_iff

theorem optional_list_eq_ok_iff {key : String} {fields : List Field} {values : List Json} :
    Decoder.optional key [] list fields = .ok values ↔
      (valueOf key fields).OrNull (fun data => data.kind = .list) ∧
        values = (valueOf key fields).items :=
  (reads_list.optional key rfl).eq_ok_iff

/-- A value that may be left out is a list of some shape if it is a list and its items have
the shape; null has no items. -/
theorem orNull_isListOf_iff {data : Json} :
    data.OrNull (IsListOf shape) ↔
      data.OrNull (fun data => data.kind = .list) ∧ ∀ item ∈ data.items, shape item := by
  cases data <;> simp [OrNull, IsNull, IsListOf, kind, items]

theorem texts_eq_ok_iff {key : String} {fields : List Field} {ts : List Text} :
    texts key fields = .ok ts ↔
      (valueOf key fields).OrNull (IsListOf IsText) ∧
        ts = (valueOf key fields).items.map Json.text := by
  simp only [texts, bind_eq_ok_iff, below_eq_ok_iff, optional_list_eq_ok_iff,
    reads_textItem.each.eq_ok_iff, orNull_isListOf_iff]
  constructor
  · rintro ⟨values, ⟨hlist, rfl⟩, hitems, rfl⟩
    exact ⟨⟨hlist, hitems⟩, rfl⟩
  · rintro ⟨⟨hlist, hitems⟩, rfl⟩
    exact ⟨_, ⟨hlist, rfl⟩, hitems, rfl⟩

theorem reads_typeAlias : Reads typeAlias IsAlias TypeAlias.ofData where
  eq_ok_iff {data result} := by
    simp only [typeAlias, bind_eq_ok_iff, reads_object.eq_ok_iff, required_text_eq_ok_iff,
      optional_text_eq_ok_iff, texts_eq_ok_iff, pure_eq_ok_iff, isAlias_iff, and_assoc,
      exists_and_left, exists_eq_left]
    rfl

theorem reads_variant : Reads variant IsVariant Variant.ofData where
  eq_ok_iff {data result} := by
    unfold variant
    split
    · next tag types =>
      simp only [bind_eq_ok_iff, below_eq_ok_iff, reads_textItem.each.eq_ok_iff, pure_eq_ok_iff,
        and_assoc, exists_and_left, exists_eq_left]
      simp [IsVariant, Variant.ofData, IsText, IsListOf, kind, items, Json.text, text?]
    · next hother =>
      have hshape : ¬ data.IsVariant := by
        intro hvariant
        unfold IsVariant at hvariant
        split at hvariant
        · next tag args =>
          obtain ⟨htag, hargs, -⟩ := hvariant
          cases tag <;> simp [IsText, kind] at htag
          cases args <;> simp [kind] at hargs
          exact hother _ _ rfl
        · exact hvariant
      simp [hshape]

theorem reads_customType : Reads customType IsCustomType CustomType.ofData where
  eq_ok_iff {data result} := by
    simp only [customType, bind_eq_ok_iff, reads_object.eq_ok_iff, required_text_eq_ok_iff,
      optional_text_eq_ok_iff, optional_list_eq_ok_iff, texts_eq_ok_iff, below_eq_ok_iff,
      reads_variant.each.eq_ok_iff, pure_eq_ok_iff, isCustomType_iff, orNull_isListOf_iff]
    constructor
    · rintro ⟨_, ⟨hobject, rfl⟩, _, ⟨hcases, rfl⟩, _, ⟨hname, rfl⟩, _, ⟨hcomment, rfl⟩, _,
        ⟨hargs, rfl⟩, _, ⟨hvariants, rfl⟩, rfl⟩
      exact ⟨⟨hobject, hname, hcomment, hargs, hcases, hvariants⟩, rfl⟩
    · rintro ⟨⟨hobject, hname, hcomment, hargs, hcases, hvariants⟩, rfl⟩
      exact ⟨_, ⟨hobject, rfl⟩, _, ⟨hcases, rfl⟩, _, ⟨hname, rfl⟩, _, ⟨hcomment, rfl⟩, _,
        ⟨hargs, rfl⟩, _, ⟨hvariants, rfl⟩, rfl⟩

theorem valueWith_eq_ok_iff {associativity : Option Text} {precedence : Option Precedence}
    {fields : List Field} {v : Value} :
    valueWith associativity precedence fields = .ok v ↔
      (valueOf "name" fields).IsText ∧ (valueOf "comment" fields).OrNull IsText ∧
        (valueOf "type" fields).IsText ∧
          v = { name := (valueOf "name" fields).text
                comment := (valueOf "comment" fields).text
                type := (valueOf "type" fields).text
                associativity, precedence } := by
  simp only [valueWith, bind_eq_ok_iff, required_text_eq_ok_iff, optional_text_eq_ok_iff,
    pure_eq_ok_iff, and_assoc, exists_and_left, exists_eq_left]

theorem optional_side_eq_ok_iff {fields : List Field} {side : Option Text} :
    Decoder.optional "associativity" none (fun data => some <$> text data) fields = .ok side ↔
      (valueOf "associativity" fields).OrNull IsText ∧
        side = (valueOf "associativity" fields).text? :=
  ((reads_text.option text?_eq_some).optional "associativity" rfl).eq_ok_iff

theorem optional_level_eq_ok_iff {fields : List Field} {level : Option Precedence} :
    Decoder.optional "precedence" none (fun data => some <$> precedence data) fields =
        .ok level ↔
      (valueOf "precedence" fields).OrNull IsInteger ∧
        level = (valueOf "precedence" fields).precedence? :=
  ((reads_precedence.option precedence?_eq_some).optional "precedence" rfl).eq_ok_iff

theorem reads_value : Reads value IsValue Value.ofData where
  eq_ok_iff {data result} := by
    simp only [value, bind_eq_ok_iff, reads_object.eq_ok_iff, optional_side_eq_ok_iff,
      optional_level_eq_ok_iff, valueWith_eq_ok_iff, isValue_iff]
    constructor
    · rintro ⟨_, ⟨hobject, rfl⟩, _, ⟨hside, rfl⟩, _, ⟨hlevel, rfl⟩, hname, hcomment, htype, rfl⟩
      exact ⟨⟨hobject, hname, hcomment, htype, hside, hlevel⟩, rfl⟩
    · rintro ⟨⟨hobject, hname, hcomment, htype, hside, hlevel⟩, rfl⟩
      exact ⟨_, ⟨hobject, rfl⟩, _, ⟨hside, rfl⟩, _, ⟨hlevel, rfl⟩, hname, hcomment, htype, rfl⟩

theorem ofData_of_fixity {data : Json} (hside : (data.part "associativity").IsText)
    (hlevel : (data.part "precedence").IsInteger) :
    Value.ofData data =
      { name := (data.part "name").text
        comment := (data.part "comment").text
        type := (data.part "type").text
        associativity := some (data.part "associativity").text
        precedence := some ((data.part "precedence").precedence?.getD (.level 0)) } := by
  rw [Value.ofData, text?_eq_some hside, precedence?_eq_some hlevel]
  rfl

theorem reads_operator : Reads operator IsOperator Value.ofData where
  eq_ok_iff {data result} := by
    have hinteger : ¬ Json.IsInteger .null := by decide
    simp only [operator, bind_eq_ok_iff, reads_object.eq_ok_iff, required_text_eq_ok_iff,
      (reads_precedence.required hinteger "precedence").eq_ok_iff, valueWith_eq_ok_iff,
      isOperator_iff, isValue_iff]
    constructor
    · rintro ⟨_, ⟨hobject, rfl⟩, _, ⟨hside, rfl⟩, _, ⟨hlevel, rfl⟩, hname, hcomment, htype, rfl⟩
      exact ⟨⟨⟨hobject, hname, hcomment, htype, .inr hside, .inr hlevel⟩, hside, hlevel⟩,
        (ofData_of_fixity hside hlevel).symm⟩
    · rintro ⟨⟨⟨hobject, hname, hcomment, htype, -, -⟩, hside, hlevel⟩, rfl⟩
      exact ⟨_, ⟨hobject, rfl⟩, _, ⟨hside, rfl⟩, _, ⟨hlevel, rfl⟩, hname, hcomment, htype,
        ofData_of_fixity hside hlevel⟩

-- ═════════════════════════════════════════════════════════════════════════════
-- Modules and packages
-- ═════════════════════════════════════════════════════════════════════════════

/-- The custom types stand under the key that the decoder picks. -/
theorem valueOf_customKey (data : Json) :
    valueOf (customKey data.fields) data.fields = data.customTypes := by
  unfold customKey customTypes
  cases h : field? "unions".toList data.fields with
  | none => rfl
  | some unions =>
    show (field? "unions".toList data.fields).getD .null = unions
    rw [h, Option.getD_some]

theorem reads_moduleDocs : Reads moduleDocs IsModule ModuleDocs.ofData where
  eq_ok_iff {data result} := by
    simp only [moduleDocs, bind_eq_ok_iff, reads_object.eq_ok_iff, required_text_eq_ok_iff,
      optional_text_eq_ok_iff, optional_list_eq_ok_iff, below_eq_ok_iff,
      reads_typeAlias.each.eq_ok_iff, reads_customType.each.eq_ok_iff, reads_value.each.eq_ok_iff,
      reads_operator.each.eq_ok_iff, pure_eq_ok_iff, isModule_iff, orNull_isListOf_iff]
    constructor
    · rintro ⟨_, ⟨hobject, rfl⟩, _, ⟨haliases, rfl⟩, _, ⟨hcustoms, rfl⟩, _, ⟨hvalues, rfl⟩, _,
        ⟨hoperators, rfl⟩, _, ⟨hname, rfl⟩, _, ⟨hcomment, rfl⟩, _, ⟨halias, rfl⟩, _,
        ⟨hcustom, rfl⟩, _, ⟨hvalue, rfl⟩, _, ⟨hoperator, rfl⟩, rfl⟩
      rw [valueOf_customKey] at hcustoms hcustom ⊢
      exact ⟨⟨hobject, hname, hcomment, ⟨haliases, halias⟩, ⟨hcustoms, hcustom⟩,
        ⟨hvalues, hvalue⟩, hoperators, hoperator⟩, rfl⟩
    · rintro ⟨⟨hobject, hname, hcomment, ⟨haliases, halias⟩, ⟨hcustoms, hcustom⟩,
        ⟨hvalues, hvalue⟩, hoperators, hoperator⟩, rfl⟩
      rw [← valueOf_customKey] at hcustoms hcustom
      refine ⟨_, ⟨hobject, rfl⟩, _, ⟨haliases, rfl⟩, _, ⟨hcustoms, rfl⟩, _, ⟨hvalues, rfl⟩, _,
        ⟨hoperators, rfl⟩, _, ⟨hname, rfl⟩, _, ⟨hcomment, rfl⟩, _, ⟨halias, rfl⟩, _,
        ⟨hcustom, rfl⟩, _, ⟨hvalue, rfl⟩, _, ⟨hoperator, rfl⟩, ?_⟩
      rw [valueOf_customKey]
      rfl

end Decoder

/-- The modules are found where the package has them. -/
theorem packageItems?_eq_some_iff {data : Json} {values : List Json} :
    packageItems? data = some values ↔
      (data.kind = .list ∨ data.IsObject ∧ (data.part "modules").kind = .list) ∧
        values = data.modules := by
  cases data with
  | arr items => simp [packageItems?, kind, modules, eq_comm]
  | obj fields =>
    have hpart : (Json.obj fields).part "modules" =
        (field? "modules".toList fields).getD .null := rfl
    simp only [packageItems?, modules, hpart]
    cases field? "modules".toList fields with
    | none => simp [IsObject, kind]
    | some value => cases value <;> simp [IsObject, kind, items, eq_comm]
  | _ => simp [packageItems?, kind, IsObject]

/-- A package has the shape of one if its modules are found and have theirs. -/
theorem isPackage_iff {data : Json} :
    data.IsPackage ↔
      (data.kind = .list ∨ data.IsObject ∧ (data.part "modules").kind = .list) ∧
        ∀ value ∈ data.modules, value.IsModule := by
  cases data <;> simp [IsPackage, IsListOf, IsObject, kind, modules, items]

/-- **Acceptance.** A value is accepted if and only if it has the shape of package
documentation. What is decoded is then what the modules in it say, each of them in its
place, with all their entries. -/
theorem decodePackage_accepts (data : Json) :
    ((∃ modules, decodePackage data = .ok modules) ↔ data.IsPackage) ∧
      ∀ modules, decodePackage data = .ok modules ↔
        data.IsPackage ∧ modules = data.modules.map ModuleDocs.ofData := by
  have hdecode : ∀ modules, decodePackage data = .ok modules ↔
      data.IsPackage ∧ modules = data.modules.map ModuleDocs.ofData := by
    intro modules
    have hitems : decodePackage data = .ok modules ↔ ∃ values,
        packageItems? data = some values ∧
          Decoder.each Decoder.moduleDocs values = .ok modules := by
      unfold decodePackage
      cases packageItems? data with
      | none => simp
      | some values => simp [mapError_eq_ok_iff]
    simp only [hitems, packageItems?_eq_some_iff, Decoder.reads_moduleDocs.each.eq_ok_iff,
      isPackage_iff, and_assoc, exists_and_left, exists_eq_left]
  refine ⟨⟨?_, ?_⟩, hdecode⟩
  · rintro ⟨modules, h⟩
    exact ((hdecode modules).1 h).1
  · intro h
    exact ⟨_, (hdecode _).2 ⟨h, rfl⟩⟩

/-- A truth value is a precedence, and what stands under `types` does not matter once
`unions` is there. -/
example :
    let operator : Json := .obj [
      ("name".toList, .str "+".toList), ("type".toList, .str "a".toList),
      ("associativity".toList, .str "left".toList), ("precedence".toList, .bool true)]
    (Json.arr [.obj [
      ("name".toList, .str "M".toList), ("unions".toList, .null), ("types".toList, .int 0),
      ("binops".toList, .arr [operator])]]).IsPackage := by
  decide

end PackageDocs
