import PackageDocs.Proofs.Json.WrittenPaths
import PackageDocs.Proofs.Package.Acceptance

/-!
# Faults where they are

The fault that is told for refused documentation is one of the documentation: the path in
the message leads to a value, and this value has the fault that the message names. The
modules before the one at fault are decoded. As with acceptance, what is said of a decoder
follows from what is said of its parts.

## Main definitions

- `FaultKind.Describes`: a value has a fault of the kind
- `Fault.IsAt`: a fault stands where its steps lead
- `Decoder.FaultsIn`: a result tells faults of the data alone

## Main results

- `Decoder.FaultsIn.required`, `Decoder.FaultsIn.optional`, `Decoder.FaultsIn.each`: fields
  and items
- `Decoder.faultsIn_moduleDocs`: modules
- `decodePackage_fault_located`: packages
-/

namespace PackageDocs

open Json

/-- The value is of the kind that is expected. -/
def Expected.Admits : Expected → Json → Prop
  | .object => IsObject
  | .list => fun data => data.kind = .list
  | .text => IsText
  | .integer => IsInteger

/-- The value has a fault of the kind. -/
def FaultKind.Describes : FaultKind → Json → Prop
  | .missingField key, data => data.IsObject ∧ field? key data.fields = none
  | .wrongKind expected found, data => ¬ expected.Admits data ∧ data.kind = found
  | .notText, data => ¬ data.IsText
  | .notVariant, data => ¬ ∃ tag types, data = .arr [.str tag, .arr types]

/-- The steps of the fault lead to a value that has it, and they can be read where they are
written. -/
structure Fault.IsAt (fault : Fault) (data : Json) : Prop where
  plain : ∀ step ∈ fault.steps, step.IsPlain
  describes : ∃ part, data.at? fault.steps = some part ∧ fault.kind.Describes part

theorem FaultKind.Describes.isAt {kind : FaultKind} {data : Json} (h : kind.Describes data) :
    Fault.IsAt { kind } data :=
  ⟨fun _ hstep => absurd hstep List.not_mem_nil, data, rfl, h⟩

theorem Fault.IsAt.under {fault : Fault} {step : PathStep} {data part : Json}
    (h : fault.IsAt part) (hstep : step.IsPlain) (hpart : data.at? [step] = some part) :
    (fault.under step).IsAt data := by
  obtain ⟨hplain, node, hnode, hkind⟩ := h
  refine ⟨?_, node, ?_, hkind⟩
  · intro other hother
    rcases List.mem_cons.1 hother with rfl | hother
    · exact hstep
    · exact hplain other hother
  · cases step with
    | key name =>
      obtain ⟨value, hvalue, hat⟩ := Option.bind_eq_some_iff.1 hpart
      obtain rfl : value = part := Option.some.inj hat
      show (field? name data.fields).bind _ = some node
      rw [hvalue]
      exact hnode
    | index i =>
      obtain ⟨value, hvalue, hat⟩ := Option.bind_eq_some_iff.1 hpart
      obtain rfl : value = part := Option.some.inj hat
      show data.items[i]?.bind _ = some node
      rw [hvalue]
      exact hnode

namespace Decoder

/-- A fault that the result tells is one of the data. -/
def FaultsIn {α : Type} (data : Json) (result : Decoded α) : Prop :=
  ∀ fault, result = .error fault → fault.IsAt data

variable {α β : Type} {data : Json} {decoder : Decoder α} {fields : List Field}

theorem faultsIn_ok (a : α) : FaultsIn data (.ok a) := by
  intro fault h
  exact absurd h (by simp)

theorem faultsIn_error {kind : FaultKind} (h : kind.Describes data) :
    FaultsIn data (.error { kind } : Decoded α) := by
  rintro _ ⟨⟩
  exact h.isAt

/-- What is decoded first may be used by what is decoded next. -/
theorem FaultsIn.bind {x : Decoded α} {f : α → Decoded β} (hx : FaultsIn data x)
    (hf : ∀ a, x = .ok a → FaultsIn data (f a)) : FaultsIn data (x >>= f) := by
  cases x with
  | error fault => exact fun fault' h => hx fault' (congrArg Except.error (Except.error.inj h))
  | ok a => exact hf a rfl

theorem FaultsIn.map {x : Decoded α} (hx : FaultsIn data x) (f : α → β) :
    FaultsIn data (f <$> x) := by
  cases x with
  | error fault => exact fun fault' h => hx fault' (congrArg Except.error (Except.error.inj h))
  | ok a => exact faultsIn_ok (f a)

theorem FaultsIn.below {x : Decoded α} {step : PathStep} {part : Json} (hx : FaultsIn part x)
    (hstep : step.IsPlain) (hpart : data.at? [step] = some part) :
    FaultsIn data (below step x) := by
  cases x with
  | error fault =>
    rintro _ ⟨⟩
    exact (hx fault rfl).under hstep hpart
  | ok a => exact faultsIn_ok a

-- ═════════════════════════════════════════════════════════════════════════════
-- Values of one kind
-- ═════════════════════════════════════════════════════════════════════════════

theorem faultsIn_wrongKind {expected : Expected} (h : ¬ expected.Admits data) :
    FaultsIn data (wrongKind expected data : Decoded α) :=
  faultsIn_error ⟨h, rfl⟩

theorem faultsIn_text (data : Json) : FaultsIn data (text data) := by
  cases data with
  | str t => exact faultsIn_ok t
  | _ => exact faultsIn_wrongKind (by simp [Expected.Admits, IsText, kind])

theorem faultsIn_textItem (data : Json) : FaultsIn data (textItem data) := by
  cases data with
  | str t => exact faultsIn_ok t
  | _ => exact faultsIn_error (by simp [FaultKind.Describes, IsText, kind])

theorem faultsIn_list (data : Json) : FaultsIn data (list data) := by
  cases data with
  | arr items => exact faultsIn_ok items
  | _ => exact faultsIn_wrongKind (by simp [Expected.Admits, kind])

theorem faultsIn_object (data : Json) : FaultsIn data (object data) := by
  cases data with
  | obj fields => exact faultsIn_ok fields
  | _ => exact faultsIn_wrongKind (by simp [Expected.Admits, IsObject, kind])

theorem faultsIn_precedence (data : Json) : FaultsIn data (precedence data) := by
  cases data with
  | int n => exact faultsIn_ok (Precedence.level n)
  | bool b => exact faultsIn_ok (Precedence.flag b)
  | _ => exact faultsIn_wrongKind (by simp [Expected.Admits, IsInteger, kind])

-- ═════════════════════════════════════════════════════════════════════════════
-- Fields and items
-- ═════════════════════════════════════════════════════════════════════════════

theorem at?_key_of_field? {name : Text} {value : Json} (h : field? name fields = some value) :
    (Json.obj fields).at? [.key name] = some value := by
  show (field? name fields).bind _ = some value
  rw [h]
  rfl

theorem FaultsIn.required (h : ∀ value, FaultsIn value (decoder value)) {key : String}
    (hkey : (PathStep.key key.toList).IsPlain) :
    FaultsIn (.obj fields) (required key decoder fields) := by
  unfold Decoder.required
  split
  · next hnone => exact faultsIn_error ⟨rfl, hnone⟩
  · next value hvalue => exact (h value).below hkey (at?_key_of_field? hvalue)

theorem FaultsIn.optional (h : ∀ value, FaultsIn value (decoder value)) {key : String}
    (hkey : (PathStep.key key.toList).IsPlain) (default : α) :
    FaultsIn (.obj fields) (optional key default decoder fields) := by
  unfold Decoder.optional
  split
  · exact faultsIn_ok default
  · exact faultsIn_ok default
  · next value _ hvalue => exact (h value).below hkey (at?_key_of_field? hvalue)

theorem FaultsIn.eachFrom (h : ∀ value, FaultsIn value (decoder value))
    (before after : List Json) (hitems : data.items = before ++ after) :
    FaultsIn data (eachFrom before.length decoder after) := by
  induction after generalizing before with
  | nil => exact faultsIn_ok []
  | cons value after ih =>
    have hvalue : data.at? [.index before.length] = some value := by
      show data.items[before.length]?.bind _ = some value
      rw [hitems, List.getElem?_append_right (Nat.le_refl _), Nat.sub_self]
      rfl
    have hlater : FaultsIn data (Decoder.eachFrom (before.length + 1) decoder after) := by
      have hrest := ih (before ++ [value]) (by simp [hitems])
      rwa [List.length_append] at hrest
    rw [Decoder.eachFrom]
    have hindex : (PathStep.index before.length).IsPlain := trivial
    refine ((h value).below hindex hvalue).bind fun first _ => ?_
    exact hlater.bind fun later _ => faultsIn_ok (first :: later)

theorem FaultsIn.each (h : ∀ value, FaultsIn value (decoder value)) (items : List Json) :
    FaultsIn (.arr items) (each decoder items) :=
  FaultsIn.eachFrom h [] items rfl

/-- Where items stand under a key, their list does. -/
theorem field?_eq_of_items {key : String} {item : Json} {rest : List Json}
    (h : (valueOf key fields).items = item :: rest) :
    field? key.toList fields = some (.arr (item :: rest)) := by
  rw [valueOf] at h
  cases hfield : field? key.toList fields with
  | none =>
    rw [hfield] at h
    exact absurd h (by simp [items])
  | some value =>
    rw [hfield, Option.getD_some] at h
    cases value with
    | arr items => rw [show items = item :: rest from h]
    | _ => exact absurd h (by simp [items])

/-- The items under a key are those of the list that stands there; where none stands there
are no items, and so no faults. -/
theorem FaultsIn.below_each (h : ∀ value, FaultsIn value (decoder value)) {key : String}
    (hkey : (PathStep.key key.toList).IsPlain) {items : List Json}
    (hitems : Decoder.optional key [] list fields = .ok items) :
    FaultsIn (.obj fields) (Decoder.below (.key key.toList) (Decoder.each decoder items)) := by
  obtain ⟨-, rfl⟩ := optional_list_eq_ok_iff.1 hitems
  cases hvalues : (valueOf key fields).items with
  | nil => exact faultsIn_ok []
  | cons item rest =>
    exact (FaultsIn.each h (item :: rest)).below hkey
      (at?_key_of_field? (field?_eq_of_items hvalues))

-- ═════════════════════════════════════════════════════════════════════════════
-- Entries
-- ═════════════════════════════════════════════════════════════════════════════

theorem faultsIn_texts {key : String} (hkey : (PathStep.key key.toList).IsPlain) :
    FaultsIn (.obj fields) (texts key fields) :=
  (FaultsIn.optional faultsIn_list hkey []).bind fun _ hitems =>
    FaultsIn.below_each faultsIn_textItem hkey hitems

theorem faultsIn_required_text {key : String} (hkey : (PathStep.key key.toList).IsPlain) :
    FaultsIn (.obj fields) (Decoder.required key text fields) :=
  FaultsIn.required faultsIn_text hkey

theorem faultsIn_optional_text {key : String} (hkey : (PathStep.key key.toList).IsPlain) :
    FaultsIn (.obj fields) (Decoder.optional key [] text fields) :=
  FaultsIn.optional faultsIn_text hkey []

/-- What is read from fields is read of objects alone. -/
theorem faultsIn_of_object (f : List Field → Decoded α)
    (h : ∀ fields, FaultsIn (.obj fields) (f fields)) (data : Json) :
    FaultsIn data (object data >>= f) := by
  cases data with
  | obj fields => exact h fields
  | _ =>
    exact (faultsIn_object _).bind fun _ hfields => absurd hfields (by simp [object, wrongKind])

theorem faultsIn_typeAlias (data : Json) : FaultsIn data (typeAlias data) := by
  refine faultsIn_of_object _ (fun fields => ?_) data
  refine (faultsIn_required_text (by decide)).bind fun name _ => ?_
  refine (faultsIn_optional_text (by decide)).bind fun comment _ => ?_
  refine (faultsIn_texts (by decide)).bind fun args _ => ?_
  exact (faultsIn_required_text (by decide)).bind fun type _ => faultsIn_ok _

theorem faultsIn_variant (data : Json) : FaultsIn data (variant data) := by
  unfold variant
  split
  · next tag types =>
    have htypes : (Json.arr [.str tag, .arr types]).at? [.index 1] = some (.arr types) := rfl
    have hindex : (PathStep.index 1).IsPlain := trivial
    exact ((FaultsIn.each faultsIn_textItem types).below hindex htypes).bind
      fun args _ => faultsIn_ok _
  · next hother =>
    apply faultsIn_error
    rintro ⟨tag, types, rfl⟩
    exact hother tag types rfl

theorem faultsIn_customType (data : Json) : FaultsIn data (customType data) := by
  refine faultsIn_of_object _ (fun fields => ?_) data
  refine (FaultsIn.optional faultsIn_list (by decide) []).bind fun cases hcases => ?_
  refine (faultsIn_required_text (by decide)).bind fun name _ => ?_
  refine (faultsIn_optional_text (by decide)).bind fun comment _ => ?_
  refine (faultsIn_texts (by decide)).bind fun args _ => ?_
  exact (FaultsIn.below_each faultsIn_variant (by decide) hcases).bind
    fun variants _ => faultsIn_ok _

theorem faultsIn_valueWith (associativity : Option Text) (precedence : Option Precedence) :
    FaultsIn (.obj fields) (valueWith associativity precedence fields) := by
  refine (faultsIn_required_text (by decide)).bind fun name _ => ?_
  refine (faultsIn_optional_text (by decide)).bind fun comment _ => ?_
  exact (faultsIn_required_text (by decide)).bind fun type _ => faultsIn_ok _

theorem faultsIn_value (data : Json) : FaultsIn data (value data) := by
  refine faultsIn_of_object _ (fun fields => ?_) data
  refine (FaultsIn.optional (fun v => (faultsIn_text v).map some) (by decide) none).bind
    fun associativity _ => ?_
  refine (FaultsIn.optional (fun v => (faultsIn_precedence v).map some) (by decide) none).bind
    fun level _ => ?_
  exact faultsIn_valueWith associativity level

theorem faultsIn_operator (data : Json) : FaultsIn data (operator data) := by
  refine faultsIn_of_object _ (fun fields => ?_) data
  refine (faultsIn_required_text (by decide)).bind fun associativity _ => ?_
  refine (FaultsIn.required faultsIn_precedence (by decide)).bind fun level _ => ?_
  exact faultsIn_valueWith (some associativity) (some level)

-- ═════════════════════════════════════════════════════════════════════════════
-- Modules and packages
-- ═════════════════════════════════════════════════════════════════════════════

theorem isPlain_customKey (fields : List Field) :
    (PathStep.key (customKey fields).toList).IsPlain := by
  unfold customKey
  split
  · decide
  · decide

theorem faultsIn_moduleDocs (data : Json) : FaultsIn data (moduleDocs data) := by
  refine faultsIn_of_object _ (fun fields => ?_) data
  have hcustom := isPlain_customKey fields
  refine (FaultsIn.optional faultsIn_list (by decide) []).bind fun aliases haliases => ?_
  refine (FaultsIn.optional faultsIn_list hcustom []).bind fun customs hcustoms => ?_
  refine (FaultsIn.optional faultsIn_list (by decide) []).bind fun values hvalues => ?_
  refine (FaultsIn.optional faultsIn_list (by decide) []).bind fun operators hoperators => ?_
  refine (faultsIn_required_text (by decide)).bind fun name _ => ?_
  refine (faultsIn_optional_text (by decide)).bind fun comment _ => ?_
  refine (FaultsIn.below_each faultsIn_typeAlias (by decide) haliases).bind fun _ _ => ?_
  refine (FaultsIn.below_each faultsIn_customType hcustom hcustoms).bind fun _ _ => ?_
  refine (FaultsIn.below_each faultsIn_value (by decide) hvalues).bind fun _ _ => ?_
  exact (FaultsIn.below_each faultsIn_operator (by decide) hoperators).bind
    fun _ _ => faultsIn_ok _

/-- The first item at fault ends the decoding of a list; the items before it are decoded. -/
theorem exists_of_eachFrom_eq_error {i : Nat} {items : List Json} {fault : Fault}
    (h : eachFrom i decoder items = .error fault) :
    ∃ before item after inner, items = before ++ item :: after ∧
      (∀ earlier ∈ before, ∃ a, decoder earlier = .ok a) ∧ decoder item = .error inner ∧
      fault = inner.under (.index (i + before.length)) := by
  induction items generalizing i with
  | nil => exact absurd h (by simp [eachFrom])
  | cons item items ih =>
    rw [eachFrom] at h
    cases hitem : decoder item with
    | error inner =>
      rw [hitem] at h
      exact ⟨[], item, items, inner, rfl, by simp, hitem, (Except.error.inj h).symm⟩
    | ok first =>
      have hlater : eachFrom (i + 1) decoder items = .error fault := by
        rw [hitem] at h
        cases hrest : eachFrom (i + 1) decoder items with
        | error later =>
          rw [hrest] at h
          exact congrArg Except.error (Except.error.inj h)
        | ok later =>
          rw [hrest] at h
          have hok : (.ok (first :: later) : Decoded (List α)) = .error fault := h
          exact absurd hok (by simp)
      obtain ⟨before, value, after, inner, rfl, hbefore, hvalue, hfault⟩ := ih hlater
      refine ⟨item :: before, value, after, inner, rfl, ?_, hvalue, ?_⟩
      · exact List.forall_mem_cons.2 ⟨⟨first, hitem⟩, hbefore⟩
      · rw [hfault, List.length_cons, Nat.add_right_comm, Nat.add_assoc]

end Decoder

namespace Fault

/-- The message below a path is the path and what the fault says of itself. -/
theorem message_eq_append (fault : Fault) (path : Text) :
    fault.message path = path ++ fault.message [] := by
  simp [message]

theorem message_under (fault : Fault) (step : PathStep) (path : Text) :
    (fault.under step).message path = fault.message (path ++ step.text) := by
  simp [message, under]

end Fault

end PackageDocs
