import PackageDocs.Proofs.Entry.Rendering
import PackageDocs.Proofs.Signature.Cuts

/-!
# Inline and stacked signatures

The signature of a value has two layouts, and the width decides between them: the whole
signature on the line of its name, if that line is shorter than the width, and otherwise
one line for each argument of the type. The line is measured without qualifiers, while
the type is cut with them; the arguments on the lines still hold all words of the type,
each mark read as an arrow.

## Main definitions

- `Value.shownArguments`: the arguments of the type, as a signature shows them
- `Value.stackedText`: the text of a stacked signature

## Main results

- `words_unmarkArrows_squash`: marks may be spelled out before or after squashing
- `Value.squash_intercalate_shownArguments`: the arguments shown are the type shown
- `Value.plain_document_of_lt`, `Value.plain_document_of_le`: the two texts
- `Value.document_eq_iff`: two widths lay a value out alike if and only if both or neither
  have room for it
- `Value.render_eq_render_iff`: so the rendering changes at one width only
- `Value.render_inline_or_stacked`: the layouts of a value in every width
-/

namespace PackageDocs

open Text

-- ═════════════════════════════════════════════════════════════════════════════
-- Words and marks
-- ═════════════════════════════════════════════════════════════════════════════

/-- A text without blanks is one word or empty. -/
theorem words_unmarkArrows_of_solid {front : Text} (hfront : ∀ c ∈ front, isBlank c = false) :
    words (unmarkArrows front) =
      (words front).flatMap fun word => words (unmarkArrows word) := by
  by_cases hne : front = []
  · rw [hne]
    rfl
  · rw [IsWord.words_eq ⟨hne, hfront⟩, List.flatMap_singleton]

/-- Marks are spelled out word by word. The words are read from the middle of one on,
`front` being its start. -/
theorem words_unmarkArrows_append {front : Text} (hfront : ∀ c ∈ front, isBlank c = false)
    (t : Text) :
    words (unmarkArrows (front ++ t)) =
      (words (front ++ t)).flatMap fun word => words (unmarkArrows word) := by
  induction t generalizing front with
  | nil =>
    rw [List.append_nil]
    exact words_unmarkArrows_of_solid hfront
  | cons c t ih =>
    by_cases hc : isBlank c = true
    · -- A blank is no mark, so it ends the word on both sides.
      have hmark : c ≠ Scan.arrowMark := by
        rintro rfl
        exact absurd hc (by decide)
      have hrest := @ih [] (by simp)
      rw [List.nil_append] at hrest
      rw [unmarkArrows_append, unmarkArrows_cons_of_ne hmark, words_append_cons hc,
        words_append_cons hc, List.flatMap_append, words_unmarkArrows_of_solid hfront, hrest]
    · have hsolid : ∀ d ∈ front ++ [c], isBlank d = false := by
        intro d hd
        rcases List.mem_append.1 hd with hd | hd
        · exact hfront d hd
        · rw [List.mem_singleton.1 hd]
          simpa using hc
      simpa using ih hsolid

theorem words_unmarkArrows (t : Text) :
    words (unmarkArrows t) = (words t).flatMap fun word => words (unmarkArrows word) :=
  words_unmarkArrows_append (fun _ hc => absurd hc List.not_mem_nil) t

theorem words_unmarkArrows_squash (t : Text) :
    words (unmarkArrows (squash t)) = words (unmarkArrows t) := by
  rw [words_unmarkArrows, words_squash, ← words_unmarkArrows]

/-- Arguments may be normalized one by one: the arrows between them have no qualifiers. -/
theorem words_intercalate_map_normalizeType (types : List Text) :
    words (arrow.intercalate (types.map normalizeType)) =
      (words (arrow.intercalate types)).map Word.dropQualifier := by
  cases types with
  | nil => rfl
  | cons first rest =>
    have later : ((rest.map normalizeType).flatMap fun type => ['-', '>'] :: words type) =
        (rest.flatMap fun type => ['-', '>'] :: words type).map Word.dropQualifier := by
      rw [List.flatMap_map, List.map_flatMap]
      congr 1
      funext type
      rw [words_normalizeType]
      rfl
    rw [List.map_cons, intercalate_cons_eq_append_flatMap, intercalate_cons_eq_append_flatMap,
      words_append_flatMap_arrow, words_append_flatMap_arrow, words_normalizeType, later,
      List.map_append]

theorem length_between (t : Text) (start : Nat) (places : List (Nat × Nat)) :
    (t.between start places).length = places.length + 1 := by
  induction places generalizing start with
  | nil => rfl
  | cons place places ih => rw [Text.between, List.length_cons, ih, List.length_cons]

/-- The name of an entry is shown in its anchor; an empty name has nothing to show. -/
theorem plain_anchorDocument (name : Text) : (anchorDocument name).plain = Name.display name := by
  cases name with
  | nil => rfl
  | cons c rest =>
    show Name.display (c :: rest) ++ [] = _
    rw [List.append_nil]

namespace Value

-- ═════════════════════════════════════════════════════════════════════════════
-- The arguments of a value
-- ═════════════════════════════════════════════════════════════════════════════

/-- The arguments of the type as a signature shows them: what stands between the arrows
outside brackets, without qualifiers. -/
def shownArguments (v : Value) : List Text :=
  let type := squash v.type
  (type.between 0 (topArrows type)).map fun argument => normalizeType (unmarkArrows argument)

theorem map_normalizeType_splitArguments (v : Value) :
    (splitArguments (squash v.type)).map normalizeType = v.shownArguments := by
  have hbetween := between_topArrowsFrom [] (squash v.type) 0 (Nat.le_refl 0)
  have hparts : (squash v.type).between 0 (topArrows (squash v.type)) =
      argumentsFrom 0 0 (squash v.type) :=
    hbetween.trans (attach_nil (argumentsFrom_ne_nil 0 0 _))
  rw [splitArguments_eq_map, List.map_map, shownArguments, hparts]
  rfl

theorem length_shownArguments (v : Value) :
    v.shownArguments.length = (topArrows (squash v.type)).length + 1 := by
  rw [shownArguments, List.length_map, length_between]

theorem squash_intercalate_shownArguments (v : Value) :
    squash (arrow.intercalate v.shownArguments) = normalizeType (unmarkArrows v.type) := by
  rw [squash, ← map_normalizeType_splitArguments, words_intercalate_map_normalizeType,
    intercalate_splitArguments, words_unmarkArrows_squash, normalizeType]

-- ═════════════════════════════════════════════════════════════════════════════
-- The two layouts
-- ═════════════════════════════════════════════════════════════════════════════

/-- One line under the name: the indent, a marker of three characters, an argument. -/
def stackedLine (indent : Nat) (marker argument : Text) : Text :=
  '\n' :: List.replicate indent ' ' ++ marker ++ argument

/-- The lines under the name: a colon stands before the first argument and an arrow before
each of the others. -/
def stackedLines (indent : Nat) : List Text → Text
  | [] => []
  | first :: rest =>
    stackedLine indent ":  ".toList first ++ rest.flatMap (stackedLine indent "-> ".toList)

/-- The text of a stacked signature. -/
def stackedText (indent : Nat) (v : Value) : Text :=
  Name.display v.name ++ stackedLines indent v.shownArguments

variable {scope : Scope} {frame : Frame} {v : Value}

theorem plain_argumentLines (scope : Scope) (frame : Frame) (types : List Text) :
    (argumentLines scope frame types).plain =
      stackedLines frame.indent (types.map normalizeType) := by
  have hline (marker gap type : Text) :
      (argumentLine scope frame marker gap type).plain =
        stackedLine frame.indent (marker ++ gap) (normalizeType type) := by
    rw [argumentLine, Document.plain_append, Scope.plain_typeDocument]
    simp [Document.plain, Frame.newline, Token.plain, Token.keyword, stackedLine]
  have later (rest : List Text) :
      Document.plain (rest.flatMap (argumentLine scope frame ['-', '>'] [' '])) =
        (rest.map normalizeType).flatMap (stackedLine frame.indent "-> ".toList) := by
    rw [Document.plain, List.flatMap_assoc, List.flatMap_map]
    congr 1
    funext type
    exact hline ['-', '>'] [' '] type
  cases types with
  | nil => rfl
  | cons first rest =>
    rw [argumentLines, Document.plain_append, hline, later]
    rfl

/-- With room for the line the signature is that line. -/
theorem plain_document_of_lt (h : v.inlineText.length < frame.width) :
    (v.document scope frame).plain = v.inlineText := by
  rw [document, if_pos h, Document.plain_append, plain_anchorDocument]
  show _ ++ (" : ".toList ++ (scope.typeDocument (squash v.type)).plain) = _
  rw [Scope.plain_typeDocument, normalizeType_squash, inlineText, List.append_assoc]

/-- Without room for the line the arguments are stacked. -/
theorem plain_document_of_le (h : frame.width ≤ v.inlineText.length) :
    (v.document scope frame).plain = v.stackedText frame.indent := by
  rw [document, if_neg (by omega), Document.plain_append, plain_anchorDocument,
    plain_argumentLines, map_normalizeType_splitArguments, stackedText]

/-- Behind the name an inline signature goes on with a space, a stacked one with a new
line. -/
theorem inlineText_ne_stackedText (v : Value) (indent : Nat) :
    v.inlineText ≠ v.stackedText indent := by
  have hne : v.shownArguments ≠ [] := by
    intro h
    have hlength := v.length_shownArguments
    rw [h] at hlength
    exact absurd hlength (by simp)
  obtain ⟨first, rest, hshown⟩ := List.exists_cons_of_ne_nil hne
  intro h
  rw [inlineText, List.append_assoc, stackedText, hshown] at h
  have hnext := (List.cons.inj (List.append_cancel_left h)).1
  exact absurd hnext (by decide)

/-- A width with room for the line and one without make different documents. -/
theorem document_ne_of_lt_of_le {indent : Nat} {wide narrow : Int}
    (hwide : v.inlineText.length < wide) (hnarrow : narrow ≤ v.inlineText.length) :
    v.document scope { width := wide, indent } ≠ v.document scope { width := narrow, indent } := by
  intro h
  have hplain := congrArg Document.plain h
  rw [plain_document_of_lt hwide, plain_document_of_le hnarrow] at hplain
  exact v.inlineText_ne_stackedText indent hplain

/-- Under one indent, two widths lay the value out alike if and only if both or neither
have room for its line. -/
theorem document_eq_iff (scope : Scope) (v : Value) (indent : Nat) (width₁ width₂ : Int) :
    v.document scope { width := width₁, indent } = v.document scope { width := width₂, indent } ↔
      (v.inlineText.length < width₁ ↔ v.inlineText.length < width₂) := by
  constructor
  · intro h
    constructor
    · intro h₁
      exact Int.not_le.1 fun h₂ => document_ne_of_lt_of_le h₁ h₂ h
    · intro h₂
      exact Int.not_le.1 fun h₁ => document_ne_of_lt_of_le h₂ h₁ h.symm
  · intro h
    -- The lines depend on the indent alone.
    have hlines (types : List Text) :
        argumentLines scope { width := width₁, indent } types =
          argumentLines scope { width := width₂, indent } types := by
      cases types <;> rfl
    simp only [document, h, hlines]

-- ═════════════════════════════════════════════════════════════════════════════
-- Every width
-- ═════════════════════════════════════════════════════════════════════════════

variable {settings : Settings}

theorem exists_render_iff (scope : Scope) (v : Value) (width : Option Int) :
    (∃ entry, (Entry.value v).render settings (.ofOption width) scope = .ok entry) ↔
      settings.HasIndent :=
  Entry.exists_render_ofOption_iff

/-- A rendered value has one of the two texts. -/
theorem plain_signature_of_render {width : Option Int} {entry : RenderedEntry}
    (h : (Entry.value v).render settings (.ofOption width) scope = .ok entry) :
    (v.inlineText.length < width.getD settings.width →
        entry.signature.plain = v.inlineText) ∧
      (width.getD settings.width ≤ v.inlineText.length →
        entry.signature.plain = v.stackedText settings.indent.toNat) := by
  obtain rfl := Entry.eq_rendered_of_render h
  exact ⟨fun hlt => plain_document_of_lt hlt, fun hle => plain_document_of_le hle⟩

theorem render_eq_render_iff (scope : Scope) (v : Value) (h : settings.HasIndent)
    (width₁ width₂ : Option Int) :
    (Entry.value v).render settings (.ofOption width₁) scope =
        (Entry.value v).render settings (.ofOption width₂) scope ↔
      (v.inlineText.length < width₁.getD settings.width ↔
        v.inlineText.length < width₂.getD settings.width) := by
  rw [Entry.render_eq_ok h, Entry.render_eq_ok h, Except.ok.injEq, Entry.rendered, Entry.rendered,
    RenderedEntry.mk.injEq, ← document_eq_iff scope v settings.indent.toNat]
  simp only [true_and, and_true]
  rfl

/-- **Inline or stacked.** A value is laid out under exactly those indents that can be
written out. Its text is the line of name and type if that line is shorter than the
width, and otherwise the name over one line for each argument of the type, whose
arguments put together are the type with every mark read as an arrow. The layout is the
same on each side of that one width, and differs between the sides. -/
theorem render_inline_or_stacked (scope : Scope) (settings : Settings) (v : Value) :
    let line := Name.display v.name ++ " : ".toList ++ normalizeType v.type
    let rendering (width : Option Int) :=
      (Entry.value v).render settings (.ofOption width) scope
    let limit (width : Option Int) := width.getD settings.width
    (∀ width, (∃ entry, rendering width = .ok entry) ↔ settings.HasIndent) ∧
      (∀ width entry, rendering width = .ok entry →
        (line.length < limit width →
          entry.signature.plain = line ∧ entry.signature.plain.length < limit width) ∧
        (limit width ≤ line.length →
          entry.signature.plain = v.stackedText settings.indent.toNat)) ∧
      v.shownArguments.length = (topArrows (squash v.type)).length + 1 ∧
      squash (arrow.intercalate v.shownArguments) = normalizeType (unmarkArrows v.type) ∧
      (settings.HasIndent → ∀ width₁ width₂, rendering width₁ = rendering width₂ ↔
        (line.length < limit width₁ ↔ line.length < limit width₂)) := by
  intro line rendering limit
  refine ⟨exists_render_iff scope v, ?_, v.length_shownArguments,
    v.squash_intercalate_shownArguments, render_eq_render_iff scope v⟩
  intro width entry hentry
  obtain ⟨hinline, hstacked⟩ := plain_signature_of_render hentry
  refine ⟨fun hlt => ⟨hinline hlt, ?_⟩, hstacked⟩
  rwa [hinline hlt]

/-- The line of 19 characters is stacked in a width of 19 and inline in a width of 20. A
mark is an arrow where the arguments are stacked. -/
theorem render_stacked_below_inline :
    let v : Value := { name := "f".toList, type := "(a -> M.T) -> N.U\x00b".toList }
    ∃ stacked inline,
      (Entry.value v).render { indent := 2 } (.ofOption (some 19)) {} = .ok stacked ∧
        (Entry.value v).render { indent := 2 } (.ofOption (some 20)) {} = .ok inline ∧
        stacked.signature.plain = "f\n  :  (a -> T)\n  -> U\n  -> b".toList ∧
        inline.signature.plain = "f : (a -> T) -> U\x00b".toList := by
  intro v
  obtain ⟨hexists, htexts, -⟩ := v.render_inline_or_stacked {} { indent := 2 }
  obtain ⟨stacked, hstacked⟩ := (hexists (some 19)).2 (by decide)
  obtain ⟨inline, hinline⟩ := (hexists (some 20)).2 (by decide)
  have hbelow := (htexts (some 19) stacked hstacked).2 (by decide)
  have habove := (htexts (some 20) inline hinline).1 (by decide)
  exact ⟨stacked, inline, hstacked, hinline, hbelow.trans (by decide), habove.1.trans (by decide)⟩

/-- An indent beyond every machine integer leaves neither of the texts. -/
theorem not_render_inline_or_stacked_of_indent :
    ¬ ∀ (scope : Scope) (settings : Settings) (v : Value) (width : Option Int),
      ∃ entry, (Entry.value v).render settings (.ofOption width) scope = .ok entry ∧
        (v.inlineText.length < width.getD settings.width →
          entry.signature.plain = v.inlineText) ∧
        (width.getD settings.width ≤ v.inlineText.length →
          entry.signature.plain = v.stackedText settings.indent.toNat) := by
  intro h
  obtain ⟨entry, hentry, -⟩ :=
    h {} { indent := 9223372036854775808 } { name := "f".toList, type := "a".toList } (some 80)
  have hindent := (Entry.exists_render_iff.1 ⟨entry, hentry⟩).1
  exact absurd hindent (by decide)

end Value

end PackageDocs
