import PackageDocs.Proofs.Entry.Stacking
import PackageDocs.Proofs.Signature.Normalization
import PackageDocs.Text.Lines

/-!
# Line breaks of a signature

A type is normalized before it is shown, so none of its line breaks is left. The breaks of a
signature are those in front of its lines, and those in what is shown as it is written: the
name, the type parameters and the tags.

## Main definitions

- `Document.broken`: the tokens with line breaks
- `Entry.written`: what is shown as it is written
- `Entry.lineCount`: the number of lines under the first
- `Entry.outline`: a signature without its types

## Main results

- `Scope.broken_typeDocument`: a type has no line breaks
- `Entry.broken_document`: the line breaks of a signature stand in its outline
- `Entry.count_outline`, `Entry.lineStarts_outline`: the line breaks of an outline, and the
  starts of its lines
- `Entry.render_breaks`: the line breaks of a rendered entry
-/

namespace PackageDocs

namespace Text

variable {c : Char}

/-- A line break is a blank, but not the one between words. -/
theorem isBlank_of_isLineBreak (h : isLineBreak c = true) : isBlank c = true ∧ c ≠ ' ' := by
  constructor
  · simp only [isLineBreak, isBlank, inRanges, blankRanges, List.any_cons, List.any_nil,
      Bool.or_eq_true, Bool.and_eq_true, decide_eq_true_eq, Bool.false_eq_true, or_false] at h ⊢
    omega
  · rintro rfl
    exact absurd h (by decide)

theorem isLineBreak_eq_false_of_mem_normalizeType {type : Text} (hc : c ∈ normalizeType type) :
    isLineBreak c = false := by
  by_contra h
  obtain ⟨hblank, hspace⟩ := isBlank_of_isLineBreak (eq_true_of_ne_false h)
  exact hspace ((isSpaced_normalizeType type).space c hc hblank)

theorem count_intercalate_space (hc : c ≠ ' ') (parts : List Text) :
    ([' '].intercalate parts).count c = parts.flatten.count c := by
  cases parts with
  | nil => rfl
  | cons first rest =>
    have hrest : (rest.flatMap ([' '] ++ ·)).count c = rest.flatten.count c := by
      induction rest with
      | nil => rfl
      | cons part rest ih =>
        rw [List.flatMap_cons, List.count_append, List.count_append, ih, List.flatten_cons,
          List.count_append, List.count_singleton]
        simp [hc.symm]
    rw [intercalate_cons_eq_append_flatMap, List.count_append, hrest, List.flatten_cons,
      List.count_append]

end Text

open Text

/-- The text of the token has a line break. -/
def Token.hasBreak (token : Token) : Bool :=
  token.text.any isLineBreak

/-- The text of the token starts with a line feed. -/
def Token.startsLine (token : Token) : Bool :=
  token.text.head? == some '\n'

namespace Document

/-- The tokens with line breaks. -/
def broken (d : Document) : Document :=
  d.filter Token.hasBreak

/-- The tokens that start a line. -/
def lineStarts (d : Document) : Document :=
  d.filter Token.startsLine

theorem plain_cons (token : Token) (d : Document) :
    plain (token :: d) = token.text ++ plain d :=
  rfl

theorem broken_cons (token : Token) (h : token.hasBreak = false) (d : Document) :
    broken (token :: d) = broken d :=
  List.filter_cons_of_neg (ne_true_of_eq_false h)

theorem broken_append (d e : Document) : broken (d ++ e) = broken d ++ broken e :=
  List.filter_append d e

theorem broken_flatMap {α : Type} (f : α → Document) (xs : List α) :
    broken (xs.flatMap f) = xs.flatMap fun x => broken (f x) :=
  List.filter_flatMap

/-- All line breaks of a document stand in its tokens with line breaks. -/
theorem count_plain_broken {c : Char} (hc : isLineBreak c = true) (d : Document) :
    d.broken.plain.count c = d.plain.count c := by
  induction d with
  | nil => rfl
  | cons token d ih =>
    have ih : (plain (d.filter Token.hasBreak)).count c = (plain d).count c := ih
    by_cases htoken : token.hasBreak = true
    · rw [broken, List.filter_cons_of_pos htoken, plain_cons, plain_cons, List.count_append,
        List.count_append, ih]
    · have hnone : token.text.count c = 0 := by
        rw [List.count_eq_zero]
        intro hmem
        exact htoken (List.any_eq_true.2 ⟨c, hmem, hc⟩)
      rw [broken, List.filter_cons_of_neg htoken, ih, plain_cons, List.count_append, hnone,
        Nat.zero_add]

/-- A token that starts a line has a line break. -/
theorem lineStarts_broken (d : Document) : d.broken.lineStarts = d.lineStarts := by
  rw [broken, lineStarts, List.filter_filter]
  apply List.filter_congr
  intro token _
  rcases token with ⟨text, role, target, bold⟩
  cases text with
  | nil => rfl
  | cons c rest =>
    by_cases hc : c = '\n'
    · rw [hc]
      rfl
    · simp [Token.startsLine, hc]

-- ═════════════════════════════════════════════════════════════════════════════
-- Lines under a head
-- ═════════════════════════════════════════════════════════════════════════════

variable (frame : Frame) (head : Document) (lines : List Document)

theorem broken_stacked :
    broken (stacked frame head lines) = stacked frame head.broken (lines.map broken) := by
  rw [stacked, broken_append, broken_flatMap, stacked, List.flatMap_map]
  rfl

theorem count_plain_stacked {c : Char} (hc : c ≠ ' ') :
    (stacked frame head lines).plain.count c =
      head.plain.count c + (plain lines.flatten).count c +
        if c = '\n' then lines.length else 0 := by
  have hindent : (List.replicate frame.indent ' ').count c = 0 := by
    rw [List.count_eq_zero]
    exact fun hmem => hc (List.eq_of_mem_replicate hmem)
  have hnewline : frame.newline.text.count c = if c = '\n' then 1 else 0 := by
    show ('\n' :: List.replicate frame.indent ' ').count c = _
    rw [List.count_cons, hindent, Nat.zero_add]
    simp only [beq_iff_eq, @eq_comm Char c]
  have hlines : (plain (lines.flatMap (frame.newline :: ·))).count c =
      (plain lines.flatten).count c + if c = '\n' then lines.length else 0 := by
    induction lines with
    | nil => simp [plain]
    | cons line lines ih =>
      rw [List.flatMap_cons, plain_append, plain_cons, List.count_append, List.count_append, ih,
        hnewline, List.flatten_cons, plain_append, List.count_append, List.length_cons]
      split <;> omega
  rw [stacked, plain_append, List.count_append, hlines, Nat.add_assoc]

theorem lineStarts_stacked (hhead : head.lineStarts = [])
    (hlines : ∀ line ∈ lines, lineStarts line = []) :
    (stacked frame head lines).lineStarts = List.replicate lines.length frame.newline := by
  have hflat : (lines.flatMap (frame.newline :: ·)).filter Token.startsLine =
      lines.flatMap fun _ => [frame.newline] := by
    rw [List.filter_flatMap]
    apply List.flatMap_congr
    intro line hline
    exact congrArg (frame.newline :: ·) (hlines line hline)
  rw [stacked, lineStarts, List.filter_append, hflat, ← List.map_eq_flatMap, List.map_const']
  exact congrArg (· ++ _) hhead

end Document

open Document

-- ═════════════════════════════════════════════════════════════════════════════
-- Outlines
-- ═════════════════════════════════════════════════════════════════════════════

/-- The number of lines under the head: one for each segment of a record. -/
def TypeAlias.lineCount (a : TypeAlias) : Nat :=
  let type := squash a.type
  if type.head? = some '{' then (splitRecord type).length else 0

/-- The number of lines under the name: one for each argument, unless the signature is shorter
than the width. -/
def Value.lineCount (width : Int) (v : Value) : Nat :=
  if v.inlineText.length < width then 0 else (splitArguments (squash v.type)).length

namespace Entry

/-- The number of lines under the first. -/
def lineCount (width : Int) : Entry → Nat
  | .alias entry => entry.lineCount
  | .custom entry => entry.variants.length
  | .value entry => entry.lineCount width

/-- What a signature shows as it is written: the name, the type parameters and the tags. -/
def written : Entry → List Text
  | .alias entry => Name.display entry.name :: entry.args
  | .custom entry => Name.display entry.name :: entry.args ++ entry.variants.map Variant.tag
  | .value entry => [Name.display entry.name]

/-- The signature with no type on its lines. -/
def outline (frame : Frame) : Entry → Document
  | .alias entry =>
    stacked frame (typeHead "type alias ".toList entry.name entry.args)
      (List.replicate entry.lineCount [])
  | .custom entry =>
    stacked frame (typeHead "type ".toList entry.name entry.args)
      (entry.variants.map fun variant => [.plain (' ' :: variant.tag)])
  | .value entry =>
    stacked frame (anchorDocument entry.name) (List.replicate (entry.lineCount frame.width) [])

end Entry

variable (scope : Scope) (frame : Frame)

/-- A type has no line breaks: what it shows is normalized. -/
theorem Scope.broken_typeDocument (type : Text) : (scope.typeDocument type).broken = [] := by
  rw [broken, List.filter_eq_nil_iff]
  intro token htoken hbreak
  obtain ⟨c, hc, hline⟩ := List.any_eq_true.1 hbreak
  have hmem : c ∈ (scope.typeDocument type).plain := List.mem_flatMap.2 ⟨token, htoken, hc⟩
  rw [plain_typeDocument] at hmem
  exact absurd hline (by simp [isLineBreak_eq_false_of_mem_normalizeType hmem])

theorem TypeAlias.broken_document (a : TypeAlias) :
    (a.document scope frame).broken = ((Entry.alias a).outline frame).broken := by
  rw [Entry.outline, TypeAlias.document, TypeAlias.lineCount]
  split
  · have hfields : ((splitRecord (squash a.type)).map scope.typeDocument).map broken =
        List.replicate (splitRecord (squash a.type)).length [] := by
      rw [List.map_map, List.eq_replicate_iff]
      simp [scope.broken_typeDocument]
    rw [← List.flatMap_map, ← stacked, broken_stacked, broken_stacked, hfields,
      List.map_replicate, broken_append]
    exact congrArg (stacked frame · _) (List.append_nil _)
  · rw [broken_append, broken_append, broken_cons (.plain [' ']) rfl (scope.typeDocument _),
      scope.broken_typeDocument, broken_stacked, List.append_nil]
    rfl

/-- Of the line of a variant only the tag may have line breaks. -/
theorem Variant.broken_line {marker : Text} (hmarker : marker.any isLineBreak = false)
    (v : Variant) : (v.line scope marker).broken = broken [.plain (' ' :: v.tag)] := by
  have hargs : broken (v.args.flatMap fun arg =>
      .plain [' '] :: scope.typeDocument (groupArgument (squash arg))) = [] := by
    rw [broken_flatMap, List.flatMap_eq_nil_iff]
    intro arg _
    rw [broken_cons (.plain [' ']) rfl, scope.broken_typeDocument]
  rw [line, broken_append, hargs, List.append_nil]
  exact broken_cons (.keyword marker) hmarker _

theorem CustomType.broken_document (t : CustomType) :
    (t.document scope frame).broken = ((Entry.custom t).outline frame).broken := by
  rw [Entry.outline, CustomType.document]
  cases t.variants with
  | nil => rfl
  | cons first rest =>
    have hlines : variantLines scope frame (first :: rest) =
        (first.line scope ['='] :: rest.map (Variant.line scope ['|'])).flatMap
          (frame.newline :: ·) := by
      rw [List.flatMap_cons, List.flatMap_map]
      rfl
    have hbroken : (first.line scope ['='] :: rest.map (Variant.line scope ['|'])).map broken =
        ((first :: rest).map fun variant => [.plain (' ' :: variant.tag)]).map broken := by
      rw [List.map_cons, List.map_cons, List.map_cons, List.map_map, List.map_map,
        Variant.broken_line scope rfl]
      congr 2
      funext variant
      exact Variant.broken_line scope rfl variant
    rw [hlines, ← stacked, broken_stacked, broken_stacked, hbroken]

/-- The lines of a stacked signature have no line breaks of their own. -/
theorem Value.map_broken_arguments (types : List Text) :
    (arguments scope types).map broken = List.replicate types.length [] := by
  have hline (marker gap type : Text) (hmarker : marker.any isLineBreak = false)
      (hgap : gap.any isLineBreak = false) : broken (argument scope marker gap type) = [] := by
    rw [argument, broken_cons (.keyword marker) hmarker, broken_cons (.plain gap) hgap,
      scope.broken_typeDocument]
  cases types with
  | nil => rfl
  | cons first rest =>
    rw [arguments, List.map_cons, hline _ _ _ rfl rfl, List.map_map, List.length_cons,
      List.replicate_succ]
    congr 1
    rw [List.eq_replicate_iff]
    simp [hline ['-', '>'] [' '] _ rfl rfl]

theorem Value.broken_document (v : Value) :
    (v.document scope frame).broken = ((Entry.value v).outline frame).broken := by
  rw [Entry.outline, Value.document, Value.lineCount]
  split
  · rw [broken_append, broken_cons (.keyword " : ".toList) rfl, scope.broken_typeDocument,
      broken_stacked]
    rfl
  · rw [append_argumentLines, broken_stacked, broken_stacked, map_broken_arguments,
      List.map_replicate]
    rfl

/-- The line breaks of a signature stand in its outline. -/
theorem Entry.broken_document (e : Entry) :
    (e.document scope frame).broken = (e.outline frame).broken := by
  cases e with
  | «alias» entry => exact entry.broken_document scope frame
  | custom entry => exact entry.broken_document scope frame
  | value entry => exact entry.broken_document scope frame

-- ═════════════════════════════════════════════════════════════════════════════
-- What an outline shows
-- ═════════════════════════════════════════════════════════════════════════════

theorem count_typeHead {c : Char} (hc : c ≠ ' ') {keyword : Text} (hkeyword : c ∉ keyword)
    (name : Text) (args : List Text) :
    (typeHead keyword name args).plain.count c = (Name.display name :: args).flatten.count c := by
  have hargs : (plain (if args.isEmpty then [] else [.plain (' ' :: [' '].intercalate args)])).count
      c = args.flatten.count c := by
    split
    · next hempty =>
      rw [List.isEmpty_iff.1 hempty]
      rfl
    · show (' ' :: [' '].intercalate args ++ []).count c = _
      rw [List.append_nil, List.count_cons_of_ne hc.symm, count_intercalate_space hc]
  rw [typeHead, List.cons_append, plain_cons, plain_append, List.count_append, List.count_append,
    hargs, plain_anchorDocument, List.flatten_cons, List.count_append]
  have hkeyword : (Token.keyword keyword).text.count c = 0 := List.count_eq_zero.2 hkeyword
  rw [hkeyword, Nat.zero_add]

/-- A name that starts with a line feed is an operator, and a parenthesis is shown before it. -/
theorem head?_display_ne_newline (name : Text) : (Name.display name).head? ≠ some '\n' := by
  have hnewline : isAlphanumeric '\n' = false := by decide +kernel
  cases name with
  | nil => exact Option.some_ne_none '\n' |>.symm
  | cons c rest =>
    by_cases hc : c = '\n'
    · rw [hc, Name.display, Name.isOperator, hnewline]
      exact fun h => absurd (Option.some.inj h) (by decide)
    · rw [Name.display]
      split <;> simp [hc]

theorem lineStarts_anchorDocument (name : Text) : (anchorDocument name).lineStarts = [] := by
  cases name with
  | nil => rfl
  | cons c rest =>
    apply List.filter_cons_of_neg
    simpa [Token.startsLine, Token.anchor] using head?_display_ne_newline (c :: rest)

theorem lineStarts_typeHead {keyword : Text} (hkeyword : keyword.head? ≠ some '\n')
    (name : Text) (args : List Text) : (typeHead keyword name args).lineStarts = [] := by
  have hname := lineStarts_anchorDocument name
  rw [lineStarts] at hname
  rw [typeHead, lineStarts, List.cons_append, List.filter_cons_of_neg, List.filter_append, hname]
  · split <;> rfl
  · simpa [Token.startsLine, Token.keyword] using hkeyword

namespace Entry

/-- The line breaks of an outline: those of what is written, and one line feed for each line. -/
theorem count_outline {c : Char} (hc : isLineBreak c = true) (e : Entry) :
    (e.outline frame).plain.count c =
      e.written.flatten.count c + if c = '\n' then e.lineCount frame.width else 0 := by
  have hspace : c ≠ ' ' := (isBlank_of_isLineBreak hc).2
  have hkeyword {keyword : Text} (h : keyword.any isLineBreak = false) : c ∉ keyword := by
    intro hmem
    exact ne_true_of_eq_false h (List.any_eq_true.2 ⟨c, hmem, hc⟩)
  cases e with
  | «alias» entry =>
    rw [outline, count_plain_stacked frame _ _ hspace, count_typeHead hspace (hkeyword rfl),
      List.length_replicate]
    simp [plain, written, lineCount]
  | custom entry =>
    have htags : (plain (entry.variants.map fun variant =>
        [Token.plain (' ' :: variant.tag)]).flatten).count c =
        (entry.variants.map Variant.tag).flatten.count c := by
      induction entry.variants with
      | nil => rfl
      | cons variant rest ih =>
        rw [List.map_cons, List.flatten_cons, plain_append, List.count_append, ih, List.map_cons,
          List.flatten_cons, List.count_append]
        simp [plain, Token.plain, List.count_cons_of_ne hspace.symm]
    rw [outline, count_plain_stacked frame _ _ hspace, count_typeHead hspace (hkeyword rfl), htags,
      List.length_map, written, List.flatten_append, List.count_append]
    rfl
  | value entry =>
    rw [outline, count_plain_stacked frame _ _ hspace, plain_anchorDocument,
      List.length_replicate]
    simp [plain, written, lineCount]

theorem lineStarts_outline (e : Entry) :
    (e.outline frame).lineStarts = List.replicate (e.lineCount frame.width) frame.newline := by
  have hempty {n : Nat} (line : Document) (hline : line ∈ List.replicate n []) :
      line.lineStarts = [] := by
    rw [List.eq_of_mem_replicate hline]
    rfl
  cases e with
  | «alias» entry =>
    rw [outline, lineStarts_stacked frame _ _ (lineStarts_typeHead (by decide) _ _) hempty,
      List.length_replicate]
    rfl
  | custom entry =>
    have htags : ∀ line ∈ entry.variants.map fun variant => [Token.plain (' ' :: variant.tag)],
        lineStarts line = [] := by
      intro line hline
      obtain ⟨variant, -, rfl⟩ := List.mem_map.1 hline
      rfl
    rw [outline, lineStarts_stacked frame _ _ (lineStarts_typeHead (by decide) _ _) htags,
      List.length_map]
    rfl
  | value entry =>
    rw [outline, lineStarts_stacked frame _ _ (lineStarts_anchorDocument _) hempty,
      List.length_replicate]
    rfl

/-- **Types do not break the layout.** An entry is laid out under exactly those indents that can
be written out. The line breaks of its signature are those of the name, the type parameters and
the tags, and one line feed in front of each line under the first, followed by the indent. So
the tokens with line breaks are those of the outline: the types have none. -/
theorem render_breaks (scope : Scope) (settings : Settings) (width : Option Int) (e : Entry) :
    let rendering := e.render settings (.ofOption width) scope
    let lines := e.lineCount (width.getD settings.width)
    ((∃ rendered, rendering = .ok rendered) ↔ settings.HasIndent) ∧
      ∀ rendered, rendering = .ok rendered →
        (∀ c, isLineBreak c = true → rendered.signature.plain.count c =
          e.written.flatten.count c + if c = '\n' then lines else 0) ∧
        rendered.signature.lineStarts =
          List.replicate lines (.plain ('\n' :: List.replicate settings.indent.toNat ' ')) ∧
        rendered.signature.broken = (e.outline (settings.frame width)).broken := by
  intro rendering lines
  refine ⟨exists_render_ofOption_iff, ?_⟩
  intro rendered hrendered
  obtain rfl := eq_rendered_of_render hrendered
  have hbroken := e.broken_document scope (settings.frame width)
  refine ⟨?_, ?_, hbroken⟩
  · intro c hc
    show (e.document scope (settings.frame width)).plain.count c = _
    rw [← count_plain_broken hc, hbroken, count_plain_broken hc, count_outline _ hc]
    rfl
  · show (e.document scope (settings.frame width)).lineStarts = _
    rw [← lineStarts_broken, hbroken, lineStarts_broken, lineStarts_outline]
    rfl

/-- The breaks inside the record are gone, the one in the type parameter stays. -/
theorem render_breaks_of_record :
    let e : Entry := .alias
      { name := "R".toList, args := ["a\rb".toList]
        type := "\x7b x\n: A\u2028, y\r\n: B\n\x7d".toList }
    let start : Token := .plain "\n  ".toList
    ∃ rendered, e.render { indent := 2 } (.ofOption (some 80)) {} = .ok rendered ∧
      rendered.signature.plain.count '\n' = 2 ∧
      rendered.signature.plain.count '\u2028' = 0 ∧
      rendered.signature.lineStarts = [start, start] ∧
      rendered.signature.broken = [.plain " a\rb".toList, start, start] := by
  intro e start
  obtain ⟨hexists, hbreaks⟩ := render_breaks {} { indent := 2 } (some 80) e
  obtain ⟨rendered, hrendered⟩ := hexists.2 (by decide)
  obtain ⟨hcount, hstarts, hbroken⟩ := hbreaks rendered hrendered
  exact ⟨rendered, hrendered, (hcount '\n' rfl).trans (by decide +kernel),
    (hcount '\u2028' rfl).trans (by decide +kernel), hstarts.trans (by decide +kernel),
    hbroken.trans (by decide +kernel)⟩

/-- An indent beyond every machine integer leaves no signature. -/
theorem not_render_breaks_of_indent :
    ¬ ∀ (scope : Scope) (settings : Settings) (width : Option Int) (e : Entry),
      ∃ rendered, e.render settings (.ofOption width) scope = .ok rendered ∧
        rendered.signature.plain.count '\n' =
          e.written.flatten.count '\n' + e.lineCount (width.getD settings.width) := by
  intro h
  obtain ⟨rendered, hrendered, -⟩ :=
    h {} { indent := 9223372036854775808 } none (.custom { name := "T".toList })
  exact absurd (exists_render_ofOption_iff.1 ⟨rendered, hrendered⟩) (by decide)

end Entry

end PackageDocs
