import PackageDocs.Entry.Layout
import PackageDocs.Proofs.Signature.Arguments
import PackageDocs.Proofs.Signature.References

/-!
# Layouts of a signature

A frame decides where the lines of a signature end and how far they are indented. What
stands on the lines does not depend on it: two layouts of an entry have the same words
and the same links.

## Main definitions

- `Document.stacked`: lines under a head
- `Document.Agree`: two documents with the same words and the same links
- `Value.arguments`: the lines of a stacked signature, without breaks

## Main results

- `Document.agree_of_eq_stacked`: the same lines agree in every two frames
- `Value.document_agree`: an inline signature agrees with a stacked one
- `Entry.document_agree`: any two layouts of an entry agree
-/

namespace PackageDocs

open Text

namespace Document

/-- The same words with the same links. -/
structure Agree (d e : Document) : Prop where
  text : squash d.plain = squash e.plain
  links : d.links = e.links

/-- Lines under a head, each on a line of its own. -/
def stacked (frame : Frame) (head : Document) (lines : List Document) : Document :=
  head ++ lines.flatMap (frame.newline :: ·)

theorem words_plain_stacked (frame : Frame) (head : Document) (lines : List Document) :
    words (stacked frame head lines).plain =
      words head.plain ++ lines.flatMap fun line => words line.plain := by
  induction lines generalizing head with
  | nil => simp [stacked]
  | cons line lines ih =>
    -- The first line belongs to the head of the others.
    have hstacked : stacked frame head (line :: lines) =
        stacked frame (head ++ frame.newline :: line) lines := by
      simp [stacked]
    rw [hstacked, ih, plain_append, List.flatMap_cons, ← List.append_assoc]
    congr 1
    exact words_append_gap (isGap_newline frame.indent) head.plain line.plain

theorem links_stacked (frame : Frame) (head : Document) (lines : List Document) :
    (stacked frame head lines).links = head.links ++ lines.flatMap links := by
  rw [stacked, links_append]
  congr 1
  induction lines with
  | nil => rfl
  | cons line lines ih =>
    rw [List.flatMap_cons, links_append, ih, List.flatMap_cons]
    rfl

/-- A layout agrees in every two frames if no frame changes its head and its lines. -/
theorem agree_of_eq_stacked {layout : Frame → Document}
    (h : ∃ head lines, ∀ frame, layout frame = stacked frame head lines) (frame₁ frame₂ : Frame) :
    Agree (layout frame₁) (layout frame₂) := by
  obtain ⟨head, lines, h⟩ := h
  rw [h frame₁, h frame₂]
  constructor
  · rw [squash_eq_squash_iff, words_plain_stacked, words_plain_stacked]
  · rw [links_stacked, links_stacked]

end Document

open Document

theorem isWord_colon : IsWord [':'] :=
  isWord_singleton (by decide)

theorem isWord_arrow : IsWord ['-', '>'] :=
  (isWord_singleton (by decide)).cons (by decide)

theorem words_append_flatMap_arrow (s : Text) (ts : List Text) :
    words (s ++ ts.flatMap (arrow ++ ·)) =
      words s ++ ts.flatMap fun t => ['-', '>'] :: words t := by
  induction ts generalizing s with
  | nil => simp
  | cons t ts ih =>
    have hfirst : words (s ++ (arrow ++ t)) = words s ++ ['-', '>'] :: words t := by
      show words (s ++ ([' '] ++ (['-', '>'] ++ ([' '] ++ t)))) = _
      rw [words_append_gap isGap_space, words_append_gap isGap_space, isWord_arrow.words_eq]
      rfl
    rw [List.flatMap_cons, ← List.append_assoc, ih, hfirst, List.flatMap_cons, List.append_assoc]

/-- An arrow refers to nothing: it does not start with a capital. -/
theorem Scope.wordLink_arrow (scope : Scope) : scope.wordLink ['-', '>'] = [] := by
  have hreference : scope.reference? ['-', '>'] = none := by
    rw [reference?]
    split
    · rfl
    · rfl
  rw [wordLink, hreference]

namespace Value

/-- A line of a stacked signature, without the break before it. -/
def argument (scope : Scope) (marker gap type : Text) : Document :=
  .keyword marker :: .plain gap :: scope.typeDocument type

/-- The lines of a stacked signature, without the breaks before them. -/
def arguments (scope : Scope) : List Text → List Document
  | [] => []
  | first :: rest =>
    argument scope [':'] [' ', ' '] first :: rest.map (argument scope ['-', '>'] [' '])

theorem append_argumentLines (scope : Scope) (frame : Frame) (head : Document)
    (types : List Text) :
    head ++ argumentLines scope frame types = stacked frame head (arguments scope types) := by
  cases types with
  | nil => rfl
  | cons first rest =>
    rw [stacked, argumentLines, arguments, List.flatMap_cons, List.flatMap_map]
    rfl

theorem words_plain_argument (scope : Scope) {marker gap : Text} (hmarker : IsWord marker)
    (hgap : IsGap gap) (type : Text) :
    words (argument scope marker gap type).plain =
      marker :: (words type).map Word.dropQualifier := by
  show words (marker ++ (gap ++ (scope.typeDocument type).plain)) = _
  rw [words_append_gap hgap, hmarker.words_eq, Scope.plain_typeDocument, words_normalizeType]
  rfl

theorem links_argument (scope : Scope) (marker gap type : Text) :
    (argument scope marker gap type).links = (words type).flatMap scope.wordLink := by
  rw [← Scope.links_typeDocument]
  rfl

/-- The words on the lines are the markers and the words of the arguments. -/
theorem words_arguments (scope : Scope) (first : Text) (rest : List Text) :
    ((arguments scope (first :: rest)).flatMap fun line => words line.plain) =
      [':'] :: (words (arrow.intercalate (first :: rest))).map Word.dropQualifier := by
  -- The marker before a further argument is the arrow in front of it.
  have later : (rest.map (argument scope ['-', '>'] [' '])).flatMap (fun line => words line.plain) =
      (rest.flatMap fun type => ['-', '>'] :: words type).map Word.dropQualifier := by
    rw [List.flatMap_map, List.map_flatMap]
    congr 1
    funext type
    exact words_plain_argument scope isWord_arrow isGap_space type
  have hgap : IsGap [' ', ' '] := isGap_space.cons (by decide)
  rw [arguments, List.flatMap_cons, later, words_plain_argument scope isWord_colon hgap,
    intercalate_cons_eq_append_flatMap, words_append_flatMap_arrow, List.map_append]
  rfl

/-- The links on the lines are those that the words of the arguments carry. -/
theorem links_arguments (scope : Scope) (first : Text) (rest : List Text) :
    (arguments scope (first :: rest)).flatMap links =
      (words (arrow.intercalate (first :: rest))).flatMap scope.wordLink := by
  have later : (rest.map (argument scope ['-', '>'] [' '])).flatMap links =
      (rest.flatMap fun type => ['-', '>'] :: words type).flatMap scope.wordLink := by
    rw [List.flatMap_map, List.flatMap_assoc]
    congr 1
    funext type
    rw [links_argument, List.flatMap_cons, Scope.wordLink_arrow, List.nil_append]
  rw [arguments, List.flatMap_cons, later, links_argument, intercalate_cons_eq_append_flatMap,
    words_append_flatMap_arrow, List.flatMap_append]

/-- The squashed type of a value without marks is put together from its arguments. -/
theorem intercalate_splitArguments_squash {type : Text} (hmark : Scan.arrowMark ∉ type) :
    arrow.intercalate (splitArguments (squash type)) = squash type := by
  apply intercalate_splitArguments_of_not_mem
  intro h
  rcases eq_space_or_mem_of_mem_squash h with hspace | hmem
  · exact absurd hspace (by decide)
  · exact hmark hmem

/-- The words of a signature are those of the name, the colon and the words of the type
without qualifiers. -/
theorem words_plain_document (scope : Scope) (frame : Frame) (v : Value)
    (hmark : Scan.arrowMark ∉ v.type) :
    words (v.document scope frame).plain =
      words (anchorDocument v.name).plain ++
        [':'] :: (words v.type).map Word.dropQualifier := by
  rw [document]
  split
  · rw [plain_append]
    show words (_ ++ ([' '] ++ ([':'] ++ ([' '] ++ (scope.typeDocument _).plain)))) = _
    rw [words_append_gap isGap_space, words_append_gap isGap_space, isWord_colon.words_eq,
      Scope.plain_typeDocument, words_normalizeType, words_squash]
    rfl
  · obtain ⟨first, rest, hsplit⟩ :=
      List.exists_cons_of_ne_nil (splitArguments_ne_nil (squash v.type))
    rw [append_argumentLines, words_plain_stacked, hsplit, words_arguments, ← hsplit,
      intercalate_splitArguments_squash hmark, words_squash]

/-- The links of a signature are the anchor and those that the words of the type carry. -/
theorem links_document (scope : Scope) (frame : Frame) (v : Value)
    (hmark : Scan.arrowMark ∉ v.type) :
    (v.document scope frame).links =
      (anchorDocument v.name).links ++ (words v.type).flatMap scope.wordLink := by
  rw [document]
  split
  · rw [links_append]
    show _ ++ (scope.typeDocument (squash v.type)).links = _
    rw [Scope.links_typeDocument, words_squash]
  · obtain ⟨first, rest, hsplit⟩ :=
      List.exists_cons_of_ne_nil (splitArguments_ne_nil (squash v.type))
    rw [append_argumentLines, links_stacked, hsplit, links_arguments, ← hsplit,
      intercalate_splitArguments_squash hmark, words_squash]

/-- An inline signature agrees with a stacked one. -/
theorem document_agree (scope : Scope) (frame₁ frame₂ : Frame) (v : Value)
    (hmark : Scan.arrowMark ∉ v.type) :
    Agree (v.document scope frame₁) (v.document scope frame₂) where
  text := by
    rw [squash_eq_squash_iff, words_plain_document scope frame₁ v hmark,
      words_plain_document scope frame₂ v hmark]
  links := by rw [links_document scope frame₁ v hmark, links_document scope frame₂ v hmark]

end Value

/-- The signature of a type alias stands on its head and lines that no frame changes. -/
theorem TypeAlias.exists_document_eq_stacked (scope : Scope) (a : TypeAlias) :
    ∃ head lines, ∀ frame, a.document scope frame = stacked frame head lines := by
  by_cases hrecord : (squash a.type).head? = some '{'
  · refine ⟨typeHead "type alias ".toList a.name a.args ++ [.plain [' '], .keyword ['=']],
      (splitRecord (squash a.type)).map scope.typeDocument, fun frame => ?_⟩
    simp only [document, hrecord, if_true]
    rw [stacked, List.flatMap_map]
  · refine ⟨typeHead "type alias ".toList a.name a.args ++ [.plain [' '], .keyword ['=']] ++
      .plain [' '] :: scope.typeDocument (squash a.type), [], fun frame => ?_⟩
    simp only [document, hrecord, if_false]
    rw [stacked, List.flatMap_nil, List.append_nil]

/-- The line of a variant without the break before it. -/
def Variant.line (scope : Scope) (marker : Text) (v : Variant) : Document :=
  [.keyword marker, .plain (' ' :: v.tag)] ++
    v.args.flatMap fun arg =>
      .plain [' '] :: scope.typeDocument (groupArgument (Text.squash arg))

/-- The signature of a custom type stands on its head and lines that no frame changes. -/
theorem CustomType.exists_document_eq_stacked (scope : Scope) (t : CustomType) :
    ∃ head lines, ∀ frame, t.document scope frame = stacked frame head lines := by
  cases h : t.variants with
  | nil =>
    refine ⟨typeHead "type ".toList t.name t.args, [], fun frame => ?_⟩
    rw [document, h]
    rfl
  | cons first rest =>
    refine ⟨typeHead "type ".toList t.name t.args,
      first.line scope ['='] :: rest.map (Variant.line scope ['|']), fun frame => ?_⟩
    rw [document, h, stacked, List.flatMap_cons, List.flatMap_map]
    rfl

/-- Any two layouts of an entry agree, unless it is a value with a mark in its type. -/
theorem Entry.document_agree (scope : Scope) (frame₁ frame₂ : Frame) (e : Entry)
    (hmark : ∀ v, e = .value v → Scan.arrowMark ∉ v.type) :
    Agree (e.document scope frame₁) (e.document scope frame₂) := by
  cases e with
  | «alias» entry =>
    exact agree_of_eq_stacked (entry.exists_document_eq_stacked scope) frame₁ frame₂
  | custom entry =>
    exact agree_of_eq_stacked (entry.exists_document_eq_stacked scope) frame₁ frame₂
  | value entry => exact entry.document_agree scope frame₁ frame₂ (hmark entry rfl)

end PackageDocs
