import PackageDocs.Proofs.Entry.Anchors
import PackageDocs.Proofs.Entry.Rendering
import PackageDocs.Proofs.Except
import PackageDocs.Proofs.Signature.Segments

/-!
# Records on lines

The fields of a record stand on lines of their own. The type is cut first, and each field is
shown without its qualifiers and with its links; still the lines show what the whole type
shows, up to blanks, and link what it links.

## Main definitions

- `Document.references`: the links of a document that are no anchors
- `TypeAlias.fieldLines`: the lines of a record

## Main results

- `withoutBlanks_plain_fieldLines`, `links_fieldLines`: what lines show and link
- `TypeAlias.render_record`: the signature of a record
-/

namespace PackageDocs

open Text

namespace Document

/-- The links of the document that are no anchors. -/
def references (d : Document) : Document :=
  d.links.filter fun token => !token.bold

theorem references_append (d e : Document) : references (d ++ e) = references d ++ references e := by
  rw [references, links_append, List.filter_append]
  rfl

/-- In running text nothing is bold. -/
theorem IsRunning.references_eq {names : List Text} {d : Document} (h : IsRunning names d) :
    d.references = d.links := by
  rw [references, List.filter_eq_self]
  intro token htoken
  rw [(h token (List.mem_of_mem_filter htoken)).bold_eq_false]
  rfl

end Document

open Document

theorem references_typeHead (keyword name : Text) (args : List Text) :
    (typeHead keyword name args).references = [] := by
  unfold typeHead anchorDocument
  split <;> split <;> rfl

namespace TypeAlias

variable {scope : Scope} {settings : Settings} {width : Width} {a : TypeAlias}

/-- The segments of a record on lines of their own. -/
def fieldLines (scope : Scope) (frame : Frame) (segments : List Text) : Document :=
  segments.flatMap fun segment => frame.newline :: scope.typeDocument segment

theorem document_eq_fieldLines (scope : Scope) (frame : Frame)
    (h : (squash a.type).head? = some '{') :
    a.document scope frame =
      typeHead "type alias ".toList a.name a.args ++ [.plain [' '], .keyword ['=']] ++
        fieldLines scope frame (splitRecord (squash a.type)) := by
  simp only [document, h, if_true]
  rfl

theorem withoutBlanks_plain_fieldLines (scope : Scope) (frame : Frame) (segments : List Text) :
    withoutBlanks (fieldLines scope frame segments).plain =
      segments.flatMap fun segment => withoutBlanks (normalizeType segment) := by
  have hbreak : IsBlankText ('\n' :: List.replicate frame.indent ' ') :=
    (isGap_newline frame.indent).blank
  induction segments with
  | nil => rfl
  | cons segment segments ih =>
    have hline : plain (frame.newline :: scope.typeDocument segment) =
        ('\n' :: List.replicate frame.indent ' ') ++ (scope.typeDocument segment).plain := rfl
    rw [fieldLines, List.flatMap_cons, plain_append, withoutBlanks_append, hline,
      withoutBlanks_append, hbreak.withoutBlanks_eq, Scope.plain_typeDocument, List.flatMap_cons,
      ← ih]
    rfl

theorem links_fieldLines (scope : Scope) (frame : Frame) (segments : List Text) :
    (fieldLines scope frame segments).links =
      segments.flatMap fun segment => (scope.typeDocument segment).links := by
  have hlines := links_stacked frame [] (segments.map scope.typeDocument)
  rw [stacked, List.flatMap_map, List.flatMap_map] at hlines
  exact hlines

theorem isRunning_fieldLines (scope : Scope) (frame : Frame) (segments : List Text) :
    IsRunning scope.names (fieldLines scope frame segments) :=
  isRunning_flatMap fun segment =>
    .cons frame.isRunning_newline (scope.isRunning_typeDocument segment)

/-- An alias is rendered in some frame. -/
theorem exists_frame_of_render {entry : RenderedEntry}
    (h : (Entry.alias a).render settings width scope = .ok entry) :
    ∃ frame, entry.signature = a.document scope frame := by
  obtain ⟨frame, -, hentry⟩ := bind_eq_ok_iff.1 h
  refine ⟨frame, ?_⟩
  rw [pure_eq_ok_iff.1 hentry]
  rfl

/-- **A record on lines.** A record alias is laid out under exactly those indents that can be
written out. If no qualifier in its type reaches over a comma or a closing brace, its lines
show what the type shows, up to blanks. If besides the brace that closes the record ends its
word, they carry the links of the type. -/
theorem render_record (scope : Scope) (settings : Settings) (width : Width) (a : TypeAlias)
    (hrecord : (squash a.type).head? = some '{')
    (hwords : ∀ word ∈ words a.type, Word.IsCuttable word) :
    ((∃ entry, (Entry.alias a).render settings width scope = .ok entry) ↔ settings.HasIndent) ∧
      ∀ entry, (Entry.alias a).render settings width scope = .ok entry →
        (∃ body, entry.signature =
            typeHead "type alias ".toList a.name a.args ++ [.plain [' '], .keyword ['=']] ++ body ∧
          withoutBlanks body.plain = withoutBlanks (normalizeType a.type)) ∧
        ((squash a.type).RecordEndsWord →
          entry.signature.references = (scope.typeDocument a.type).links) := by
  rw [← words_squash] at hwords
  refine ⟨?_, ?_⟩
  · rw [Entry.exists_render_iff]
    exact and_iff_left fun _ => id
  · intro entry hentry
    obtain ⟨frame, hsignature⟩ := exists_frame_of_render hentry
    rw [hsignature, document_eq_fieldLines scope frame hrecord]
    refine ⟨⟨_, rfl, ?_⟩, ?_⟩
    · rw [withoutBlanks_plain_fieldLines, withoutBlanks_splitRecord_normalizeType hwords,
        normalizeType_squash]
    · intro hends
      rw [references_append, references_append, references_typeHead,
        (isRunning_fieldLines scope frame _).references_eq, links_fieldLines,
        links_splitRecord scope hwords hends, Scope.links_typeDocument, words_squash,
        ← Scope.links_typeDocument]
      rfl

/-- Words of this record are cut behind a reference, and behind a brace of its own. -/
theorem render_record_through_words :
    let scope : Scope := { names := ["T".toList, "U".toList], module := some "M".toList }
    let a : TypeAlias :=
      { name := "A".toList
        type := "{ x : M.T,y : { z : (N.U, a) },w : List.List M.T } -> T".toList }
    ∃ entry body, (Entry.alias a).render { indent := 2 } .usual scope = .ok entry ∧
      entry.signature =
        typeHead "type alias ".toList a.name a.args ++ [.plain [' '], .keyword ['=']] ++ body ∧
      withoutBlanks body.plain = "{x:T,y:{z:(U,a)},w:ListT}->T".toList ∧
      entry.signature.references = List.replicate 3 (.reference "T".toList) := by
  intro scope a
  obtain ⟨hexists, hrendered⟩ :=
    render_record scope { indent := 2 } .usual a (by decide +kernel) (by decide +kernel)
  obtain ⟨entry, hentry⟩ := hexists.2 (by decide)
  obtain ⟨⟨body, hsignature, htext⟩, hlinks⟩ := hrendered entry hentry
  refine ⟨entry, body, hentry, hsignature, htext.trans (by decide +kernel), ?_⟩
  exact (hlinks (by decide +kernel)).trans (by decide +kernel)

/-- An indent below every machine integer leaves no lines to compare. -/
theorem not_render_record_of_indent :
    ¬ ∀ (scope : Scope) (settings : Settings) (width : Width) (a : TypeAlias),
      (squash a.type).head? = some '{' → (∀ word ∈ words a.type, Word.IsCuttable word) →
      ∃ entry body, (Entry.alias a).render settings width scope = .ok entry ∧
        entry.signature =
          typeHead "type alias ".toList a.name a.args ++ [.plain [' '], .keyword ['=']] ++ body ∧
        withoutBlanks body.plain = withoutBlanks (normalizeType a.type) := by
  intro h
  let a : TypeAlias := { name := "A".toList, type := "{ x : Int }".toList }
  obtain ⟨entry, -, hentry, -⟩ :=
    h {} { indent := -9223372036854775809 } .usual a (by decide +kernel) (by decide +kernel)
  have hindent := (Entry.exists_render_iff.1 ⟨entry, hentry⟩).1
  exact absurd hindent (by decide)

end TypeAlias

end PackageDocs
