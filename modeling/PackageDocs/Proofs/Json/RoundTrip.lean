import PackageDocs.Json.Reader
import PackageDocs.Proofs.Json.Lexemes

/-!
# Reading what was written

A reading goes through a file lexeme by lexeme. Where it awaits a value and comes to a
written one, it goes through that value and holds it; what follows in the file is read as
if the value had been given. With nothing else in the file, the value is what is read.

## Main definitions

- `Json.Regular`: values that files hold exactly
- `Json.Reading.through?`: a reading at the end of a text
- `Json.Reading.Awaits`: a value may come next
- `Json.ReadsBack`: the text of a value gives the value, wherever it stands

## Main results

- `Json.Reading.through?_cons`: one lexeme of the text
- `Json.Regular.readsBack`: through a written value
- `Json.Regular.read?_write`: a written value is read back
-/

namespace PackageDocs

namespace Json

/-- A value that files hold exactly: it has no number with a fraction or an exponent, and
none of its objects has a key twice. -/
inductive Regular : Json → Prop
  | null : Regular .null
  | bool (b : Bool) : Regular (.bool b)
  | int (n : Int) : Regular (.int n)
  | str (text : Text) : Regular (.str text)
  | arr {items : List Json} (h : ∀ item ∈ items, Regular item) : Regular (.arr items)
  | obj {fields : List Field} (hkeys : (fields.map Prod.fst).Nodup)
      (h : ∀ field ∈ fields, Regular field.2) : Regular (.obj fields)

attribute [simp] Regular.null Regular.bool Regular.int Regular.str

@[simp] theorem regular_arr {items : List Json} :
    Regular (.arr items) ↔ ∀ item ∈ items, Regular item :=
  ⟨fun h => by cases h; assumption, .arr⟩

@[simp] theorem regular_obj {fields : List Field} :
    Regular (.obj fields) ↔ (fields.map Prod.fst).Nodup ∧ ∀ field ∈ fields, Regular field.2 :=
  ⟨fun h => by cases h; exact ⟨by assumption, by assumption⟩, fun h => .obj h.1 h.2⟩

namespace Reading

/-- The reading at the end of the text. -/
def through? (reading : Reading) (t : Text) : Option Reading :=
  (lexemes? t).bind reading.run?

/-- A value may come next, inside these brackets. -/
def Awaits (reading : Reading) (outer : List Open) : Prop :=
  ∀ lexeme later, startValue? outer lexeme = some later → reading.next? lexeme = some later

variable {reading : Reading} {outer : List Open} {c : Char} {t rest after : Text}

theorem awaits_value (outer : List Open) : (value outer).Awaits outer :=
  fun _ _ h => h

/-- At the start of a list an item may come, though its end may come as well. -/
theorem awaits_firstItem (outer : List Open) : (firstItem outer).Awaits (.list [] :: outer) := by
  intro lexeme later h
  cases lexeme with
  | closeList => exact absurd h (by simp [startValue?])
  | _ => exact h

theorem through?_nil (reading : Reading) : reading.through? [] = some reading := by
  rw [through?, lexemes?]
  rfl

/-- A gap is left behind. -/
theorem through?_gap (h : isGap c = true) (t : Text) :
    reading.through? (c :: t) = reading.through? t := by
  rw [through?, lexemes?, if_pos h, through?]

/-- A lexeme is read, and the text behind it afterwards. -/
theorem through?_cons {lexeme : Lexeme} (hgap : isGap c = false)
    (h : readLexeme? c rest = some (lexeme, after)) :
    reading.through? (c :: rest) =
      (reading.next? lexeme).bind fun later => later.through? after := by
  have hlexemes : lexemes? (c :: rest) = (lexemes? after).map (lexeme :: ·) := by
    rw [lexemes?, if_neg (by simp [hgap])]
    split
    · next hnone => exact absurd (hnone.symm.trans h) (by simp)
    · next other tail hsome =>
      obtain ⟨rfl, rfl⟩ : other = lexeme ∧ tail = after := by
        simpa using hsome.symm.trans h
      rfl
  rw [through?, hlexemes]
  cases hafter : lexemes? after with
  | none => cases reading.next? lexeme <;> simp [through?, hafter]
  | some lexemes => simp [through?, hafter, run?]

/-- A lexeme that starts a value is read where a value may come. -/
theorem Awaits.through?_cons (h : reading.Awaits outer) {lexeme : Lexeme} {later : Reading}
    (hstart : startValue? outer lexeme = some later) (hgap : isGap c = false)
    (hread : readLexeme? c rest = some (lexeme, after)) :
    reading.through? (c :: rest) = later.through? after := by
  rw [Reading.through?_cons hgap hread, h lexeme later hstart, Option.bind_some]

theorem through?_newline (depth : Nat) (t : Text) :
    reading.through? (newline depth ++ t) = reading.through? t := by
  have hspaces : ∀ n, reading.through? (List.replicate n ' ' ++ t) = reading.through? t := by
    intro n
    induction n with
    | zero => rfl
    | succ n ih =>
      rw [List.replicate_succ, List.cons_append, through?_gap rfl, ih]
  rw [newline, List.cons_append, through?_gap rfl, hspaces]

/-- A key and the colon behind it, where the key may come. -/
theorem through?_key {fields : List Field} {key : Text}
    (h : reading.next? (.text key) = some (.colon fields key outer)) (t : Text) :
    reading.through? (writeText key ++ ':' :: ' ' :: t) =
      (value (.object fields key :: outer)).through? t := by
  rw [writeText_append, through?_cons rfl (readLexeme?_text key _), h, Option.bind_some,
    through?_cons rfl rfl]
  exact through?_gap rfl t

end Reading

open Reading

variable {outer : List Open} {after : Text}

/-- Wherever a value is awaited, the text that is written for `v` gives `v`, if what
follows it cannot be taken for a part of a number. -/
def ReadsBack (v : Json) : Prop :=
  ∀ (depth : Nat) (outer : List Open) (reading : Reading) (after : Text),
    reading.Awaits outer → EndsNumber after →
      reading.through? (writeAt depth v ++ after) = (behind v outer).through? after

theorem endsNumber_newline (depth : Nat) (t : Text) : EndsNumber (newline depth ++ t) :=
  endsNumber_cons.2 (by decide)

theorem endsNumber_writeItems (depth : Nat) (items : List Json) (h : EndsNumber after) :
    EndsNumber (writeItems depth items ++ after) := by
  cases items with
  | nil => exact h
  | cons item items => exact endsNumber_cons.2 (by decide)

theorem endsNumber_writeFields (depth : Nat) (fields : List Field) (h : EndsNumber after) :
    EndsNumber (writeFields depth fields ++ after) := by
  cases fields with
  | nil => exact h
  | cons field fields => exact endsNumber_cons.2 (by decide)

theorem readsBack_int (n : Int) : ReadsBack (.int n) := by
  intro depth outer reading after hawaits hafter
  obtain ⟨c, rest, heq, hgap, hread⟩ := exists_readLexeme?_ofInt n hafter
  rw [writeAt, heq]
  exact hawaits.through?_cons rfl hgap hread

theorem readsBack_str (text : Text) : ReadsBack (.str text) := by
  intro depth outer reading after hawaits hafter
  rw [writeAt, writeText_append]
  exact hawaits.through?_cons rfl rfl (readLexeme?_text text after)

/-- The items behind the first are read up to the end of their list. -/
theorem through?_writeItems (depth : Nat) {items : List Json} (h : ∀ item ∈ items, ReadsBack item)
    (before : List Json) (v : Json) :
    (behind v (.list before :: outer)).through?
        (writeItems (depth + 1) items ++ (newline depth ++ ']' :: after)) =
      (behind (.arr (before ++ v :: items)) outer).through? after := by
  induction items generalizing before v with
  | nil =>
    rw [writeItems, List.nil_append, through?_newline, through?_cons rfl rfl]
    rfl
  | cons item items ih =>
    have hends := endsNumber_writeItems (depth + 1) items
      (endsNumber_newline depth (']' :: after))
    have hitems := fun other hother => h other (List.mem_cons_of_mem item hother)
    have hcomma : (behind v (.list before :: outer)).next? .comma =
        some (value (.list (before ++ [v]) :: outer)) := rfl
    rw [writeItems]
    simp only [List.append_assoc, List.cons_append]
    rw [through?_cons rfl rfl, hcomma, Option.bind_some, through?_newline,
      h item List.mem_cons_self _ _ _ _ (awaits_value _) hends, ih hitems, List.append_assoc,
      List.singleton_append]

theorem readsBack_arr {items : List Json} (h : ∀ item ∈ items, ReadsBack item) :
    ReadsBack (.arr items) := by
  intro depth outer reading after hawaits hafter
  cases items with
  | nil =>
    show reading.through? ('[' :: ']' :: after) = _
    rw [hawaits.through?_cons rfl rfl rfl, through?_cons rfl rfl]
    rfl
  | cons item items =>
    have hends := endsNumber_writeItems (depth + 1) items
      (endsNumber_newline depth (']' :: after))
    have hitems := fun other hother => h other (List.mem_cons_of_mem item hother)
    rw [writeAt]
    simp only [List.append_assoc, List.cons_append, List.nil_append]
    rw [hawaits.through?_cons rfl rfl rfl, through?_newline,
      h item List.mem_cons_self _ _ _ _ (awaits_firstItem outer) hends,
      through?_writeItems depth hitems]
    rfl

/-- A key that was not given before takes the last place. -/
theorem putField_of_nodup {before after : List Field} {key : Text} {v : Json}
    (h : ((before ++ (key, v) :: after).map Prod.fst).Nodup) :
    putField key v before = before ++ [(key, v)] := by
  induction before with
  | nil => rfl
  | cons field before ih =>
    obtain ⟨k, w⟩ := field
    rw [List.cons_append, List.map_cons, List.nodup_cons] at h
    have hne : k ≠ key := by
      rintro rfl
      exact h.1 (by simp)
    rw [putField, if_neg hne, ih h.2, List.cons_append]

/-- The fields behind the first are read up to the end of their object, if no key is given
twice. -/
theorem through?_writeFields (depth : Nat) {fields : List Field}
    (h : ∀ field ∈ fields, ReadsBack field.2) (before : List Field) (key : Text) (v : Json)
    (hkeys : ((before ++ (key, v) :: fields).map Prod.fst).Nodup) :
    (behind v (.object before key :: outer)).through?
        (writeFields (depth + 1) fields ++ (newline depth ++ '\x7d' :: after)) =
      (behind (.obj (before ++ (key, v) :: fields)) outer).through? after := by
  induction fields generalizing before key v with
  | nil =>
    rw [writeFields, List.nil_append, through?_newline, through?_cons rfl rfl]
    show (behind (.obj (putField key v before)) outer).through? after = _
    rw [putField_of_nodup hkeys]
  | cons field fields ih =>
    obtain ⟨next, w⟩ := field
    have hends := endsNumber_writeFields (depth + 1) fields
      (endsNumber_newline depth ('\x7d' :: after))
    have hfields := fun other hother => h other (List.mem_cons_of_mem (next, w) hother)
    have hcomma : (behind v (.object before key :: outer)).next? .comma =
        some (.key (before ++ [(key, v)]) outer) := by
      rw [next?, putField_of_nodup hkeys]
    have hsplit : before ++ (key, v) :: (next, w) :: fields =
        (before ++ [(key, v)]) ++ (next, w) :: fields := by simp
    rw [hsplit] at hkeys
    rw [writeFields]
    simp only [List.append_assoc, List.cons_append, List.nil_append]
    rw [through?_cons rfl rfl, hcomma, Option.bind_some, through?_newline, through?_key rfl,
      h (next, w) List.mem_cons_self _ _ _ _ (awaits_value _) hends, ih hfields _ _ _ hkeys,
      ← hsplit]

theorem readsBack_obj {fields : List Field} (hkeys : (fields.map Prod.fst).Nodup)
    (h : ∀ field ∈ fields, ReadsBack field.2) : ReadsBack (.obj fields) := by
  intro depth outer reading after hawaits hafter
  cases fields with
  | nil =>
    show reading.through? ('\x7b' :: '\x7d' :: after) = _
    rw [hawaits.through?_cons rfl rfl rfl, through?_cons rfl rfl]
    rfl
  | cons field fields =>
    obtain ⟨key, v⟩ := field
    have hends := endsNumber_writeFields (depth + 1) fields
      (endsNumber_newline depth ('\x7d' :: after))
    have hfields := fun other hother => h other (List.mem_cons_of_mem (key, v) hother)
    rw [writeAt]
    simp only [List.append_assoc, List.cons_append, List.nil_append]
    rw [hawaits.through?_cons rfl rfl rfl, through?_newline, through?_key rfl,
      h (key, v) List.mem_cons_self _ _ _ _ (awaits_value _) hends,
      through?_writeFields depth hfields [] key v hkeys]
    rfl

/-- A reading goes through a written value and holds it. -/
theorem Regular.readsBack {v : Json} (h : v.Regular) : ReadsBack v := by
  induction h with
  | null => exact fun _ _ _ _ hawaits _ => hawaits.through?_cons rfl rfl rfl
  | bool b =>
    cases b with
    | true => exact fun _ _ _ _ hawaits _ => hawaits.through?_cons rfl rfl rfl
    | false => exact fun _ _ _ _ hawaits _ => hawaits.through?_cons rfl rfl rfl
  | int n => exact readsBack_int n
  | str text => exact readsBack_str text
  | arr _ ih => exact readsBack_arr ih
  | obj hkeys _ ih => exact readsBack_obj hkeys ih

/-- A written value is read back. -/
theorem Regular.read?_write {v : Json} (h : v.Regular) : read? (write v) = some v := by
  have hthrough := h.readsBack 0 [] (value []) [] (awaits_value []) endsNumber_nil
  rw [List.append_nil, through?_nil] at hthrough
  have hread : read? (write v) = ((value []).through? (write v)).bind result? :=
    (Option.bind_assoc ..).symm
  rw [hread, write, hthrough]
  rfl

end Json

end PackageDocs
