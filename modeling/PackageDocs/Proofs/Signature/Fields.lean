import PackageDocs.Proofs.Signature.Records

/-!
# Fields of a record

A record is written as fields with commas between them, inside a pair of braces. Within a
field all brackets are balanced and all commas are inside brackets, so the record is cut
between its fields and nowhere else, whatever stands behind it.

## Main definitions

- `Text.CommasInside`: in front of every comma a bracket is open
- `Text.IsField`: a field as it stands in a record
- `recordText`: a record as it is written
- `fieldSegments`: its fields as they are cut

## Main results

- `piecesFrom_append`: a balanced text inside a record is not cut
- `splitRecord_recordText`: the fields of a record are found
-/

namespace PackageDocs

open Text

namespace Text

/-- In front of every comma a bracket is open. -/
def CommasInside (t : Text) : Prop :=
  ∀ i < t.length, t[i]? = some ',' → ¬ EndsAtTop (t.take i)

instance : DecidablePred CommasInside := fun t =>
  inferInstanceAs (Decidable (∀ i < t.length, t[i]? = some ',' → ¬ EndsAtTop (t.take i)))

/-- A field stands in a record without blanks around it; its brackets are balanced, and
it has no comma outside them. -/
structure IsField (t : Text) : Prop where
  ne_nil : t ≠ []
  trimmed : IsTrimmed t
  balanced : IsBalanced t
  commas : CommasInside t

end Text

/-- The record with these fields. -/
def recordText (fields : List Text) : Text :=
  ['{', ' '] ++ [',', ' '].intercalate fields ++ [' ', '}']

/-- The fields of a record, the first behind `opener` and the others behind a comma; the
last has the brace that closes the record. -/
def fieldSegments (opener : Char) : List Text → List Text
  | [] => []
  | [field] => [[opener, ' '] ++ field ++ [' ', '}']]
  | field :: later => ([opener, ' '] ++ field) :: fieldSegments ',' later

-- ═════════════════════════════════════════════════════════════════════════════
-- Inside a record
-- ═════════════════════════════════════════════════════════════════════════════

variable {parens braces : Nat} {t : Text}

/-- A text without strays is not cut inside a record, if no comma of it is outside all
brackets but the brace of the record. -/
theorem piecesFrom_append {s : Scan} {rule : Scan.Rule} (h : s.HasDepths parens braces)
    (hstrays : Scan.strays rule s t = [])
    (hcommas : ∀ i < t.length, t[i]? = some ',' →
      ¬(depthFrom '(' ')' parens (t.take i) = 0 ∧ depthFrom '{' '}' braces (t.take i) = 0))
    (rest : Text) :
    piecesFrom parens (braces + 1) (t ++ rest) =
      attach t (piecesFrom (depthFrom '(' ')' parens t) (depthFrom '{' '}' braces t + 1) rest) := by
  induction t generalizing s parens braces with
  | nil => exact (attach_nil (piecesFrom_ne_nil _ _ rest)).symm
  | cons c t ih =>
    obtain ⟨hc, hlater⟩ := Scan.strays_cons_eq_nil_iff.1 hstrays
    obtain ⟨-, hpartner⟩ := h.isStray_eq_false_iff.1 hc
    have hcomma : ¬(c = ',' ∧ parens = 0 ∧ braces + 1 = 1) := by
      rintro ⟨rfl, hparens, hbraces⟩
      exact hcommas 0 (Nat.zero_lt_succ _) rfl ⟨hparens, Nat.succ_inj.1 hbraces⟩
    have hbrace : ¬(c = '}' ∧ braces + 1 = 1) := by
      rintro ⟨rfl, hbraces⟩
      exact hpartner rfl (Nat.succ_inj.1 hbraces)
    have hrest := ih (h.step rule c) hlater fun i hi => hcommas (i + 1) (Nat.succ_lt_succ hi)
    rw [List.cons_append, piecesFrom, if_neg hcomma, if_neg hbrace, depthAfter_succ hpartner,
      hrest, attach_attach]
    rfl

/-- A field is not cut. -/
theorem Text.IsField.piecesFrom_append (h : t.IsField) (rest : Text) :
    piecesFrom 0 1 (t ++ rest) = attach t (piecesFrom 0 1 rest) := by
  obtain ⟨hparens, hbraces⟩ := endsAtTop_iff.2 h.balanced.atTop
  rw [PackageDocs.piecesFrom_append Scan.hasDepths_fresh h.balanced.strays h.commas, hparens,
    hbraces]

/-- A comma between two fields cuts; the space behind it belongs to the next field. -/
theorem piecesFrom_comma (rest : Text) :
    piecesFrom 0 1 ([',', ' '] ++ rest) = [] :: attach [',', ' '] (piecesFrom 0 1 rest) := by
  show [] :: attach [','] (attach [' '] (piecesFrom 0 1 rest)) = _
  rw [attach_attach]
  rfl

/-- What is left of a record behind the character that opens a field is cut into its
fields and the text behind the record. -/
theorem piecesFrom_fields (opener : Char) (field : Text) (later : List Text)
    (h : ∀ other ∈ field :: later, IsField other) (rest : Text) :
    attach [opener, ' ']
        (piecesFrom 0 1 ([',', ' '].intercalate (field :: later) ++ [' ', '}'] ++ rest)) =
      fieldSegments opener (field :: later) ++ [rest] := by
  induction later generalizing opener field with
  | nil =>
    have hfield : IsField field := h field List.mem_cons_self
    rw [List.intercalate_singleton, List.append_assoc, hfield.piecesFrom_append, attach_attach]
    -- A space, and then the brace that closes the record.
    show attach ([opener, ' '] ++ field) (attach [' '] [['}'], rest]) = _
    rw [attach_attach]
    simp [attach, fieldSegments]
  | cons next later ih =>
    obtain ⟨hfield, hlater⟩ := List.forall_mem_cons.1 h
    rw [List.intercalate_cons_cons, List.append_assoc, List.append_assoc, List.append_assoc,
      hfield.piecesFrom_append, attach_attach, piecesFrom_comma, attach, List.append_nil,
      ← List.append_assoc, ih ',' next hlater]
    rfl

/-- No segment of a record has a blank at its ends. -/
theorem isTrimmed_fieldSegments {opener : Char} (hopener : isBlank opener = false)
    {fields : List Text} (h : ∀ field ∈ fields, IsField field) :
    ∀ segment ∈ fieldSegments opener fields, IsTrimmed segment := by
  have hsolid : ∀ c : Char, isBlank c = false → IsTrimmed [c] := by
    intro c hc
    constructor
    · simpa using hc
    · simpa using hc
  induction opener, fields using fieldSegments.induct with
  | case1 opener => simp [fieldSegments]
  | case2 opener field =>
    rw [fieldSegments, List.forall_mem_singleton]
    have hclosed := (hsolid opener hopener).append (hsolid '}' (by decide)) (by simp) (by simp)
      (' ' :: field ++ [' '])
    simpa using hclosed
  | case3 opener field later hlater ih =>
    obtain ⟨hfield, hfields⟩ := List.forall_mem_cons.1 h
    rw [fieldSegments, List.forall_mem_cons]
    · refine ⟨?_, ih (by decide) hfields⟩
      exact (hsolid opener hopener).append hfield.trimmed (by simp) hfield.ne_nil [' ']
    · exact hlater

/-- **The fields of a record are found.** A record written as fields with commas between
them is cut into these fields, each with the brace or the comma in front of it and the
last with the brace that closes the record; what stands behind the record is one more
segment, unless it is blank. -/
theorem splitRecord_recordText (fields : List Text) (hne : fields ≠ [])
    (hfields : ∀ field ∈ fields, IsField field) (rest : Text) :
    splitRecord (recordText fields ++ rest) =
      fieldSegments '{' fields ++ if IsBlankText rest then [] else [trim rest] := by
  obtain ⟨field, later, rfl⟩ := List.exists_cons_of_ne_nil hne
  have hpieces : (recordPieces (recordText (field :: later) ++ rest)).1 ++
      [(recordPieces (recordText (field :: later) ++ rest)).2] =
        fieldSegments '{' (field :: later) ++ [rest] := by
    rw [pieces_eq_piecesFrom, ← piecesFrom_fields '{' field later hfields rest, recordText,
      List.append_assoc, List.append_assoc, ← List.append_assoc _ _ rest]
    show attach ['{'] (attach [' '] (piecesFrom 0 1 _)) = _
    rw [attach_attach]
    rfl
  obtain ⟨hcut, hrest⟩ := List.append_inj' hpieces rfl
  have htrim : (fieldSegments '{' (field :: later)).map trim =
      fieldSegments '{' (field :: later) := by
    refine (List.map_congr_left fun segment hsegment => ?_).trans (List.map_id _)
    exact (isTrimmed_fieldSegments (by decide) hfields segment hsegment).trim_eq
  rw [splitRecord_eq, hcut, List.singleton_inj.1 hrest, htrim]

/-- A record and a pair nested in a record that another record follows. -/
theorem splitRecord_recordText_nested :
    let fields := ["x : { y : a, z : b }".toList, "f : (c, d)".toList]
    let rest := " -> { e : g, h : i }".toList
    (fields ≠ [] ∧ ∀ field ∈ fields, IsField field) ∧
      splitRecord (recordText fields ++ rest) =
        [['{', ' '] ++ "x : { y : a, z : b }".toList, ", f : (c, d) ".toList ++ ['}'],
          "-> { e : g, h : i }".toList] := by
  intro fields rest
  have hrecord : IsField "x : { y : a, z : b }".toList :=
    ⟨by decide, by decide, ⟨by decide, by decide⟩, by decide⟩
  have hpair : IsField "f : (c, d)".toList :=
    ⟨by decide, by decide, ⟨by decide, by decide⟩, by decide⟩
  have hne : fields ≠ [] := by decide
  have hfields : ∀ field ∈ fields, IsField field := by
    intro field hfield
    rcases List.mem_pair.1 hfield with rfl | rfl
    · exact hrecord
    · exact hpair
  refine ⟨⟨hne, hfields⟩, ?_⟩
  rw [splitRecord_recordText fields hne hfields rest]
  decide

end PackageDocs
