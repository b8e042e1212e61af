import PackageDocs.Page.Basic
import PackageDocs.Proofs.Text.Trim

/-!
# Prose on a page

A run of prose is put together line by line and then trimmed as one text. So a block of
markdown is a run of lines without the blank lines at its two ends, and the first line kept
has lost the blanks that it starts with. All other lines keep theirs.

## Main definitions

- `Comment.IsProseRun`: lines of a comment between two listings
- `Comment.LosesBlankLines`, `Comment.IsCore`: lines without blank lines at their two ends
- `Comment.IsVerbatim`: a text of lines that have lost nothing but blank lines around them
  and blanks at the end

## Main results

- `Comment.isProseRun_of_mem_sections`: the prose among the sections of a comment
- `Comment.prose_eq_lines`: what trimming takes away from a run of lines
- `ModuleDocs.markdown_eq_lines`: the lines of a block, and when it is verbatim
-/

namespace PackageDocs

open Text

namespace Comment

/-- Lines that stand together, no listing among them, and a listing or nothing next to them on
either side. -/
def IsProseRun (lines run : List Text) : Prop :=
  run ≠ [] ∧ ∃ before after, lines = before ++ run ++ after ∧
    (∀ line ∈ run, isListing line = false) ∧ (∀ line ∈ before.getLast?, isListing line = true) ∧
    ∀ line ∈ after.head?, isListing line = true

/-- The lines `kept` are left when blank lines at the two ends are dropped. -/
def LosesBlankLines (lines kept : List Text) : Prop :=
  ∃ lead trail, lines = lead ++ kept ++ trail ∧ ∀ line ∈ lead ++ trail, IsBlankText line

/-- The text is made of the lines, less blank lines at the two ends and blanks at the end of
the last line kept. -/
def IsVerbatim (text : Text) (lines : List Text) : Prop :=
  ∃ kept tail, LosesBlankLines lines kept ∧ IsBlankText tail ∧
    ['\n'].intercalate kept = text ++ tail

/-- The lines `kept` are left when all blank lines at the two ends are dropped: they start with
`first` and end with `last`, and neither of these is blank. -/
structure IsCore (lines kept : List Text) (first last : Text) : Prop where
  losesBlankLines : LosesBlankLines lines kept
  head?_eq : kept.head? = some first
  getLast?_eq : kept.getLast? = some last
  first_full : ¬ IsBlankText first
  last_full : ¬ IsBlankText last

-- ═════════════════════════════════════════════════════════════════════════════
-- Runs of prose
-- ═════════════════════════════════════════════════════════════════════════════

/-- A comment that opens with a run of prose. -/
theorem eq_append_of_sections_eq_cons {lines run : List Text} {later : List Section}
    (h : sections lines = .prose run :: later) :
    ∃ after, lines = run ++ after ∧ run ≠ [] ∧ (∀ line ∈ run, isListing line = false) ∧
      (∀ line ∈ after.head?, isListing line = true) ∧ sections after = later := by
  induction lines generalizing run later with
  | nil => exact absurd h (by simp [sections])
  | cons line rest ih =>
    unfold sections at h
    split at h
    · exact absurd (List.cons.inj h).1 (by simp)
    · next hline =>
      have hprose : isListing line = false := eq_false_of_ne_true hline
      split at h
      · next others later' hrest =>
        obtain ⟨hrun, rfl⟩ := List.cons.inj h
        obtain rfl := Section.prose.inj hrun
        obtain ⟨after, rfl, -, hothers, hafter, hlater⟩ := ih hrest
        exact ⟨after, rfl, by simp, List.forall_mem_cons.2 ⟨hprose, hothers⟩, hafter, hlater⟩
      · next hrest =>
        obtain ⟨hrun, hlater⟩ := List.cons.inj h
        obtain rfl := Section.prose.inj hrun
        refine ⟨rest, rfl, by simp, by simpa using hprose, ?_, hlater⟩
        -- A further prose line would have joined the run.
        cases rest with
        | nil => simp
        | cons next rest =>
          intro line' hline'
          obtain rfl := Option.some.inj hline'
          by_contra hnext
          unfold sections at hrest
          rw [if_neg hnext] at hrest
          split at hrest
          · next others later' heq => exact hrest _ _ rfl
          · exact hrest _ _ rfl

theorem eq_cons_of_sections_eq_cons {lines : List Text} {names : List Text}
    {later : List Section} (h : sections lines = .listing names :: later) :
    ∃ line rest, lines = line :: rest ∧ isListing line = true ∧ sections rest = later := by
  cases lines with
  | nil => exact absurd h (by simp [sections])
  | cons line rest =>
    unfold sections at h
    split at h
    · next hline => exact ⟨line, rest, rfl, hline, (List.cons.inj h).2⟩
    · split at h
      · exact absurd (List.cons.inj h).1 (by simp)
      · exact absurd (List.cons.inj h).1 (by simp)

/-- The prose among the sections stands between two listings. -/
theorem isProseRun_of_mem_sections {lines run : List Text} (h : .prose run ∈ sections lines) :
    IsProseRun lines run := by
  generalize hsections : sections lines = parts at h
  induction parts generalizing lines with
  | nil => exact absurd h List.not_mem_nil
  | cons part parts ih =>
    cases part with
    | listing names =>
      obtain ⟨line, rest, rfl, hline, hrest⟩ := eq_cons_of_sections_eq_cons hsections
      rcases List.mem_cons.1 h with h | h
      · exact absurd h (by simp)
      · obtain ⟨hne, before, after, rfl, hrun, hbefore, hafter⟩ := ih hrest h
        refine ⟨hne, line :: before, after, rfl, hrun, ?_, hafter⟩
        rw [List.getLast?_cons]
        cases hlast : before.getLast? with
        | none => simpa using hline
        | some last => simpa using hbefore last hlast
    | prose first =>
      obtain ⟨rest, rfl, hne, hfirst, hnext, hrest⟩ := eq_append_of_sections_eq_cons hsections
      rcases List.mem_cons.1 h with h | h
      · obtain rfl := Section.prose.inj h
        exact ⟨hne, [], rest, rfl, hfirst, by simp, hnext⟩
      · obtain ⟨hrun_ne, before, after, rfl, hrun, hbefore, hafter⟩ := ih hrest h
        refine ⟨hrun_ne, first ++ before, after, by simp, hrun, ?_, hafter⟩
        -- Two runs do not meet: a listing follows the first.
        cases before with
        | nil =>
          obtain ⟨line, others, rfl⟩ := List.exists_cons_of_ne_nil hrun_ne
          have hlisting := hnext line rfl
          rw [hrun line List.mem_cons_self] at hlisting
          exact absurd hlisting Bool.false_ne_true
        | cons line before =>
          rwa [List.getLast?_append_of_ne_nil _ (by simp)]

-- ═════════════════════════════════════════════════════════════════════════════
-- Lines put together
-- ═════════════════════════════════════════════════════════════════════════════

variable {lines kept : List Text}

theorem exists_lead_of_blank_lines (hlines : ∀ line ∈ lines, IsBlankText line) (hne : kept ≠ []) :
    ∃ lead, IsBlankText lead ∧
      ['\n'].intercalate (lines ++ kept) = lead ++ ['\n'].intercalate kept := by
  induction lines with
  | nil => exact ⟨[], isBlankText_nil, rfl⟩
  | cons line rest ih =>
    obtain ⟨hline, hrest⟩ := List.forall_mem_cons.1 hlines
    obtain ⟨lead, hlead, heq⟩ := ih hrest
    refine ⟨line ++ ['\n'] ++ lead, (hline.append isBlankText_break).append hlead, ?_⟩
    obtain ⟨next, others, hnext⟩ := List.exists_cons_of_ne_nil (l := rest ++ kept) (by simp [hne])
    rw [List.cons_append, hnext, List.intercalate_cons_cons, ← hnext, heq]
    simp

theorem exists_trail_of_blank_lines (hlines : ∀ line ∈ lines, IsBlankText line) (hne : kept ≠ []) :
    ∃ trail, IsBlankText trail ∧
      ['\n'].intercalate (kept ++ lines) = ['\n'].intercalate kept ++ trail := by
  obtain ⟨first, rest, rfl⟩ := List.exists_cons_of_ne_nil hne
  refine ⟨lines.flatMap (['\n'] ++ ·), ?_, ?_⟩
  · intro c hc
    obtain ⟨line, hline, hc⟩ := List.mem_flatMap.1 hc
    exact (isBlankText_break.append (hlines line hline)) c hc
  · rw [List.cons_append, intercalate_cons_eq_append_flatMap, intercalate_cons_eq_append_flatMap,
      List.flatMap_append, List.append_assoc]

theorem LosesBlankLines.intercalate (h : LosesBlankLines lines kept) (hne : kept ≠ []) :
    ∃ lead trail, IsBlankText lead ∧ IsBlankText trail ∧
      ['\n'].intercalate lines = lead ++ ['\n'].intercalate kept ++ trail := by
  obtain ⟨front, back, rfl, hblank⟩ := h
  obtain ⟨hfront, hback⟩ := List.forall_mem_append.1 hblank
  obtain ⟨lead, hlead, hleadEq⟩ :=
    exists_lead_of_blank_lines hfront (List.append_ne_nil_of_left_ne_nil hne back)
  obtain ⟨trail, htrail, htrailEq⟩ := exists_trail_of_blank_lines hback hne
  refine ⟨lead, trail, hlead, htrail, ?_⟩
  rw [List.append_assoc, hleadEq, htrailEq, List.append_assoc]

/-- If the first line kept is not blank, it is the first such line. -/
theorem LosesBlankLines.find?_eq {first : Text} (h : LosesBlankLines lines kept)
    (hhead : kept.head? = some first) (hfull : ¬ IsBlankText first) :
    lines.find? (fun line => ¬ IsBlankText line) = some first := by
  obtain ⟨lead, trail, rfl, hblank⟩ := h
  obtain ⟨rest, rfl⟩ := List.head?_eq_some_iff.1 hhead
  rw [List.find?_eq_some_iff_append]
  refine ⟨decide_eq_true hfull, lead, rest ++ trail, by simp, ?_⟩
  intro line hline
  simpa using hblank line (List.mem_append_left _ hline)

namespace IsCore

variable {first last : Text}

theorem ne_nil (h : IsCore lines kept first last) : kept ≠ [] := by
  rintro rfl
  exact absurd h.head?_eq (by simp)

theorem exists_intercalate_eq_append_last (h : IsCore lines kept first last) :
    ∃ front, ['\n'].intercalate kept = front ++ last := by
  have hlast := h.getLast?_eq
  rcases List.eq_nil_or_concat' kept with rfl | ⟨before, final, rfl⟩
  · exact absurd rfl h.ne_nil
  · rw [List.getLast?_concat] at hlast
    obtain rfl := Option.some.inj hlast
    cases before with
    | nil => exact ⟨[], List.intercalate_singleton⟩
    | cons line before =>
      refine ⟨line ++ (before.flatMap (['\n'] ++ ·) ++ ['\n']), ?_⟩
      rw [List.cons_append, intercalate_cons_eq_append_flatMap]
      simp

/-- What trimming takes away from the lines that are kept: the blanks in front of the first
and those behind the last. -/
theorem intercalate_eq (h : IsCore lines kept first last) :
    ['\n'].intercalate kept = first.takeWhile isBlank ++ trim (['\n'].intercalate kept) ++
      last.rtakeWhile isBlank := by
  obtain ⟨rest, hkept⟩ := List.head?_eq_some_iff.1 h.head?_eq
  obtain ⟨front, hend⟩ := h.exists_intercalate_eq_append_last
  have hstart : ['\n'].intercalate kept = first ++ rest.flatMap (['\n'] ++ ·) := by
    rw [hkept, intercalate_cons_eq_append_flatMap]
  have hfull : ¬ IsBlankText (['\n'].intercalate kept) := by
    rw [hstart]
    exact fun hblank => h.first_full fun c hc => hblank c (List.mem_append_left _ hc)
  have htake : (['\n'].intercalate kept).takeWhile isBlank = first.takeWhile isBlank := by
    rw [hstart, takeWhile_isBlank_append h.first_full]
  have hrtake : (['\n'].intercalate kept).rtakeWhile isBlank = last.rtakeWhile isBlank := by
    rw [hend, rtakeWhile_isBlank_append front h.last_full]
  rw [← htake, ← hrtake]
  exact eq_append_trim_append hfull

end IsCore

/-- Lines that are not all blank have a core. -/
theorem exists_isCore (h : ∃ line ∈ lines, ¬ IsBlankText line) :
    ∃ kept first last, IsCore lines kept first last := by
  let blank : Text → Bool := fun line => IsBlankText line
  have hblank : ∀ line, blank line = true → IsBlankText line := fun _ => of_decide_eq_true
  have hrest : lines.dropWhile blank ≠ [] := by
    rw [Ne, List.dropWhile_eq_nil_iff]
    obtain ⟨line, hline, hfull⟩ := h
    exact fun hall => hfull (hblank line (hall line hline))
  have hfirst := List.head_dropWhile_not blank hrest
  have hkept : (lines.dropWhile blank).rdropWhile blank ≠ [] := by
    rw [Ne, List.rdropWhile_eq_nil_iff]
    intro hall
    rw [hall _ (List.head_mem hrest)] at hfirst
    exact absurd hfirst (by simp)
  have hlast := List.rdropWhile_last_not blank _ hkept
  refine ⟨(lines.dropWhile blank).rdropWhile blank, _, _, ?_, List.head?_eq_some_head hkept,
    List.getLast?_eq_some_getLast hkept, ?_, ?_⟩
  · refine ⟨lines.takeWhile blank, (lines.dropWhile blank).rtakeWhile blank, ?_, ?_⟩
    · rw [List.append_assoc, List.rdropWhile_append_rtakeWhile, List.takeWhile_append_dropWhile]
    · intro line hline
      rcases List.mem_append.1 hline with hline | hline
      · exact hblank line (List.mem_takeWhile_imp hline)
      · exact hblank line (List.mem_rtakeWhile_imp hline)
  · rw [(List.rdropWhile_prefix blank _).head hkept]
    exact of_decide_eq_false hfirst
  · exact fun hall => hlast (decide_eq_true hall)

/-- Prose is the core of its lines, less the blanks in front of the first line and those behind
the last. -/
theorem prose_eq_lines {run : List Text} (h : prose run ≠ []) :
    ∃ kept first last, IsCore run kept first last ∧
      ['\n'].intercalate kept =
        first.takeWhile isBlank ++ prose run ++ last.rtakeWhile isBlank := by
  have hfull : ∃ line ∈ run, ¬ IsBlankText line := by
    by_contra hall
    push Not at hall
    refine h (trim_eq_nil_iff.2 fun c hc => ?_)
    rcases mem_or_exists_mem_of_mem_intercalate hc with hc | ⟨line, hline, hc⟩
    · exact isBlankText_break c hc
    · exact hall line hline c hc
  obtain ⟨kept, first, last, hcore⟩ := exists_isCore hfull
  refine ⟨kept, first, last, hcore, ?_⟩
  obtain ⟨lead, trail, hlead, htrail, hrun⟩ := hcore.losesBlankLines.intercalate hcore.ne_nil
  rw [prose, hrun, trim_append_append hlead htrail]
  exact hcore.intercalate_eq

/-- The first line of a verbatim text that is not blank starts like the text. -/
theorem IsVerbatim.find?_eq {text : Text} {c : Char} (h : IsVerbatim text lines)
    (htext : text.head? = some c) (hc : isBlank c = false) :
    ∃ line, lines.find? (fun line => ¬ IsBlankText line) = some line ∧ line.head? = some c := by
  obtain ⟨kept, tail, hkept, -, heq⟩ := h
  have hstart : (['\n'].intercalate kept).head? = some c := by
    rw [heq, List.head?_append, htext]
    rfl
  cases kept with
  | nil => exact absurd hstart (by simp)
  | cons line rest =>
    rw [intercalate_cons_eq_append_flatMap] at hstart
    have hline : line.head? = some c := by
      cases line with
      | nil =>
        -- An empty line would put a break in front of the text.
        cases rest with
        | nil => exact absurd hstart (by simp)
        | cons next rest =>
          obtain rfl := Option.some.inj hstart
          exact absurd hc (by decide)
      | cons d line => exact hstart
    have hfull : ¬ IsBlankText line := fun hblank => by
      rw [hblank c (List.mem_of_mem_head? hline)] at hc
      exact absurd hc (by simp)
    exact ⟨line, hkept.find?_eq rfl hfull, hline⟩

end Comment

open Comment

namespace ModuleDocs

theorem exists_prose_of_mem_sectionBlocks {m : ModuleDocs} {placed : List Text}
    {parts : List Section} {text : Text} (h : .markdown text ∈ m.sectionBlocks placed parts) :
    ∃ run, .prose run ∈ parts ∧ text = prose run ∧ text ≠ [] := by
  induction parts generalizing placed with
  | nil => exact absurd h List.not_mem_nil
  | cons part parts ih =>
    cases part with
    | listing names =>
      rw [sectionBlocks, List.mem_append] at h
      rcases h with h | h
      · exact absurd h (by simp)
      · obtain ⟨run, hrun, htext⟩ := ih h
        exact ⟨run, List.mem_cons_of_mem _ hrun, htext⟩
    | prose lines =>
      rw [sectionBlocks, List.mem_append] at h
      rcases h with h | h
      · unfold proseBlocks at h
        dsimp only at h
        split at h
        · exact absurd h List.not_mem_nil
        · next hne =>
          obtain rfl := Block.markdown.inj (List.mem_singleton.1 h)
          exact ⟨lines, List.mem_cons_self, rfl, by simpa using hne⟩
      · obtain ⟨run, hrun, htext⟩ := ih h
        exact ⟨run, List.mem_cons_of_mem _ hrun, htext⟩

/-- **The lines of a block.** The text of a block of markdown is a whole run of prose, without
the blank lines at its two ends, the blanks in front of the first line kept and those behind
the last. So nothing but blank lines and blanks at the end is dropped if and only if the first
line kept does not start with a blank. -/
theorem markdown_eq_lines {m : ModuleDocs} {text : Text} (h : .markdown text ∈ m.page) :
    ∃ run kept first last, IsProseRun (lines m.comment) run ∧ IsCore run kept first last ∧
      ['\n'].intercalate kept = first.takeWhile isBlank ++ text ++ last.rtakeWhile isBlank ∧
      (IsVerbatim text run ↔ first.takeWhile isBlank = []) := by
  have hblocks : .markdown text ∈ m.sectionBlocks [] m.sections := by
    rw [page, List.mem_append] at h
    exact h.resolve_right (by simp)
  obtain ⟨run, hrun, rfl, hne⟩ := exists_prose_of_mem_sectionBlocks hblocks
  obtain ⟨kept, first, last, hcore, hkept⟩ := prose_eq_lines hne
  refine ⟨run, kept, first, last, isProseRun_of_mem_sections hrun, hcore, hkept, ?_⟩
  constructor
  · intro hverbatim
    obtain ⟨c, text, htext⟩ := List.exists_cons_of_ne_nil hne
    have hstart : (prose run).head? = some c := by rw [htext, List.head?_cons]
    have hc : isBlank c = false := (isTrimmed_trim _).first c hstart
    obtain ⟨line, hline, hlineStart⟩ := hverbatim.find?_eq hstart hc
    rw [hcore.losesBlankLines.find?_eq hcore.head?_eq hcore.first_full] at hline
    obtain rfl := Option.some.inj hline
    obtain ⟨rest, rfl⟩ := List.head?_eq_some_iff.1 hlineStart
    rw [List.takeWhile_cons, hc]
    rfl
  · intro hstart
    rw [hstart, List.nil_append] at hkept
    exact ⟨kept, last.rtakeWhile isBlank, hcore.losesBlankLines,
      fun c hc => List.mem_rtakeWhile_imp hc, hkept⟩

/-- Two runs of prose around a listing: the first keeps its indented line, the second loses
blanks on both sides. -/
theorem markdown_eq_lines_of_indented :
    let m : ModuleDocs :=
      { name := "M".toList, comment := "Uses:\n\n    f x\n@docs f\n\n  - one\n  - two  ".toList }
    m.page = [.markdown "Uses:\n\n    f x".toList, .markdown "- one\n  - two".toList] ∧
      ∀ block ∈ m.page, ∃ text, block = .markdown text ∧
        ∃ run kept first last, IsProseRun (lines m.comment) run ∧ IsCore run kept first last ∧
          ['\n'].intercalate kept = first.takeWhile isBlank ++ text ++ last.rtakeWhile isBlank ∧
          (IsVerbatim text run ↔ first.takeWhile isBlank = []) := by
  intro m
  have hpage : m.page =
      [.markdown "Uses:\n\n    f x".toList, .markdown "- one\n  - two".toList] := by
    decide +kernel
  refine ⟨hpage, fun block hblock => ?_⟩
  have htext : ∃ text, block = .markdown text := by
    rw [hpage] at hblock
    rcases List.mem_pair.1 hblock with rfl | rfl
    · exact ⟨_, rfl⟩
    · exact ⟨_, rfl⟩
  obtain ⟨text, rfl⟩ := htext
  exact ⟨text, rfl, markdown_eq_lines hblock⟩

/-- An indented line that opens a block loses its indent. -/
theorem not_isVerbatim_markdown :
    ¬ ∀ (m : ModuleDocs) (text : Text), .markdown text ∈ m.page →
      ∃ before run after, lines m.comment = before ++ run ++ after ∧ IsVerbatim text run := by
  intro h
  let m : ModuleDocs := { name := "M".toList, comment := "    code".toList }
  have hblock : .markdown "code".toList ∈ m.page := by decide +kernel
  obtain ⟨before, run, after, hlines, hverbatim⟩ := h m "code".toList hblock
  obtain ⟨line, hline, hstart⟩ := hverbatim.find?_eq rfl (by decide)
  have hmem : line ∈ lines m.comment := by
    rw [hlines]
    simp [List.mem_of_find?_eq_some hline]
  have hcode : lines m.comment = ["    code".toList] := by decide +kernel
  rw [hcode, List.mem_singleton] at hmem
  rw [hmem] at hstart
  exact absurd hstart (by decide)

end ModuleDocs

end PackageDocs
