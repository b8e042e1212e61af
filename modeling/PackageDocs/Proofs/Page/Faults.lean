import PackageDocs.Page.Plain
import PackageDocs.Proofs.Entry.Anchors
import PackageDocs.Proofs.Page.Display
import PackageDocs.Proofs.Style.Spans

/-!
# Pages that end early

Styles are read when a block needs them. Every signature needs the style of keywords, one
with an anchor needs that of names, and one with references needs that of links; markdown
needs none. So a malformed style ends the page at the first entry that needs it, and all
blocks before that entry are shown.

## Main definitions

- `Entry.NeedsMalformed`, `Block.NeedsMalformed`: an entry that cannot be styled, and its
  block

## Main results

- `Entry.exists_keyword`: every signature has a keyword
- `Entry.exists_styled_eq_error_iff`: when an entry cannot be styled
- `showBlocks_eq_of_fault`: what is shown of blocks up to a fault
- `ModuleDocs.display_ends_at_malformed`: where a malformed style ends the page
-/

namespace PackageDocs

variable {σ : Type} {styles : StyleLanguage σ} {scope : Scope} {frame : Frame} {sheet : StyleSheet}

-- ═════════════════════════════════════════════════════════════════════════════
-- Styles of an entry
-- ═════════════════════════════════════════════════════════════════════════════

/-- A style that the entry needs cannot be read: that of keywords, that of names if it has a
name, or that of links if its signature has references. -/
def Entry.NeedsMalformed (styles : StyleLanguage σ) (sheet : StyleSheet) (scope : Scope)
    (frame : Frame) (e : Entry) : Prop :=
  styles.IsMalformed sheet.keyword ∨ (e.name ≠ [] ∧ styles.IsMalformed sheet.name) ∨
    (∃ token ∈ e.document scope frame, token.role = .link ∧ token.bold = false) ∧
      styles.IsMalformed sheet.link

/-- Every signature has a keyword. -/
theorem Entry.exists_keyword (scope : Scope) (frame : Frame) (e : Entry) :
    ∃ token ∈ e.document scope frame, token.role = .keyword := by
  cases e with
  | «alias» entry =>
    refine ⟨.keyword "type alias ".toList, ?_, rfl⟩
    simp [document, TypeAlias.document, typeHead]
  | custom entry =>
    refine ⟨.keyword "type ".toList, ?_, rfl⟩
    simp [document, CustomType.document, typeHead]
  | value entry =>
    show ∃ token ∈ entry.document scope frame, _
    rw [Value.document]
    split
    · exact ⟨.keyword " : ".toList, by simp, rfl⟩
    · obtain ⟨first, rest, hsplit⟩ :=
        List.exists_cons_of_ne_nil (splitArguments_ne_nil (Text.squash entry.type))
      refine ⟨.keyword [':'], ?_, rfl⟩
      rw [hsplit]
      simp [Value.argumentLines, Value.argumentLine]

theorem Entry.exists_isUnreadable_iff {e : Entry} :
    (∃ token ∈ e.document scope frame, token.IsUnreadable styles sheet) ↔
      e.NeedsMalformed styles sheet scope frame := by
  constructor
  · rintro ⟨⟨text, role, target, bold⟩, htoken, hunreadable⟩
    cases role with
    | plain => exact absurd hunreadable id
    | keyword => exact Or.inl hunreadable
    | link =>
      cases bold with
      | false => exact Or.inr (Or.inr ⟨⟨_, htoken, rfl, rfl⟩, hunreadable⟩)
      | true =>
        have hanchor : ⟨text, .link, target, true⟩ ∈ (e.document scope frame).filter Token.bold :=
          List.mem_filter.2 ⟨htoken, rfl⟩
        rw [e.filter_bold_document, mem_anchorDocument] at hanchor
        exact Or.inr (Or.inl ⟨hanchor.1, hunreadable⟩)
  · rintro (hkeyword | ⟨hname, hstyle⟩ | ⟨⟨token, htoken, hrole, hbold⟩, hlink⟩)
    · obtain ⟨token, htoken, hrole⟩ := e.exists_keyword scope frame
      refine ⟨token, htoken, ?_⟩
      rwa [Token.IsUnreadable, hrole]
    · refine ⟨.anchor e.name, ?_, hstyle⟩
      have hanchor := mem_anchorDocument.2 ⟨hname, rfl⟩
      rw [← e.filter_bold_document scope frame] at hanchor
      exact (List.mem_filter.1 hanchor).1
    · refine ⟨token, htoken, ?_⟩
      rwa [Token.IsUnreadable, hrole, hbold]

/-- The style of a fixity is the one that keywords have. -/
theorem RenderedEntry.exists_styled_eq_error_iff {r : RenderedEntry} :
    (∃ fault, r.styled styles sheet = .error fault) ↔
      (∃ token ∈ r.signature, token.IsUnreadable styles sheet) ∨
        r.fixity ≠ none ∧ styles.IsMalformed sheet.keyword := by
  rw [← StyledText.exists_ofDocument_eq_error_iff, styled, StyleLanguage.IsMalformed]
  cases StyledText.ofDocument styles sheet r.signature with
  | error fault => simp [bind, Except.bind]
  | ok signature =>
    cases r.fixity with
    | none => simp [bind, Except.bind, pure, Except.pure]
    | some fixity =>
      cases styles.read sheet.keyword <;> simp [bind, Except.bind, pure, Except.pure]

theorem Entry.exists_styled_eq_error_iff {e : Entry} :
    (∃ fault, (e.rendered scope frame).styled styles sheet = .error fault) ↔
      e.NeedsMalformed styles sheet scope frame := by
  rw [RenderedEntry.exists_styled_eq_error_iff]
  show (∃ token ∈ e.document scope frame, _) ∨ _ ↔ _
  rw [exists_isUnreadable_iff]
  exact or_iff_left_of_imp fun h => Or.inl h.2

-- ═════════════════════════════════════════════════════════════════════════════
-- Blocks up to a fault
-- ═════════════════════════════════════════════════════════════════════════════

variable {settings : Settings} {width : Width}

/-- What is shown before a fault are the blocks in front of the one at fault, all of them. -/
theorem showBlocks_eq_of_fault {blocks : List Block} {fault : PageFault}
    (h : (showBlocks styles settings scope width blocks).fault = some fault) :
    ∃ before block after, ∃ shown : List (List (Event σ)), blocks = before ++ block :: after ∧
      before.map (Block.events styles settings scope width) = shown.map .ok ∧
      block.events styles settings scope width = .error fault ∧
      (showBlocks styles settings scope width blocks).events = shown.flatten := by
  induction blocks with
  | nil => exact absurd h (by simp [showBlocks])
  | cons block rest ih =>
    cases hblock : block.events styles settings scope width with
    | error found =>
      rw [showBlocks_cons_of_error hblock] at h ⊢
      obtain rfl := Option.some.inj h
      exact ⟨[], block, rest, [], rfl, rfl, hblock, rfl⟩
    | ok events =>
      rw [showBlocks_cons_of_ok hblock] at h ⊢
      obtain ⟨before, culprit, after, shown, rfl, hbefore, hculprit, hevents⟩ := ih h
      refine ⟨block :: before, culprit, after, events :: shown, rfl, ?_, hculprit, ?_⟩
      · rw [List.map_cons, hblock, hbefore, List.map_cons]
      · exact congrArg (events ++ ·) hevents

/-- The block of an entry is at fault where the entry cannot be laid out, and where it
cannot be styled. -/
theorem Block.events_entry_eq_error_iff {e : Entry} {fault : PageFault} :
    (Block.entry e).events styles settings scope width = .error fault ↔
      (∃ layout, e.render settings width scope = .error layout ∧ fault = .layout layout) ∨
        ∃ rendered style, e.render settings width scope = .ok rendered ∧
          rendered.styled styles settings.styles = .error style ∧
            fault = .malformedStyle style := by
  have hpure (styled : StyledText σ) (comment : Text) :
      (pure (.styled styled :: commentEvents settings.indent comment) :
        Except PageFault (List (Event σ))) ≠ .error fault := by
    simp [pure, Except.pure]
  simp only [events, bind_eq_error_iff, mapError_eq_error_iff, mapError_eq_ok_iff, hpure,
    and_false, exists_false, or_false, exists_and_left]

/-- The block cannot be styled. -/
def Block.NeedsMalformed (styles : StyleLanguage σ) (sheet : StyleSheet) (scope : Scope)
    (frame : Frame) : Block → Prop
  | .markdown _ => False
  | .entry e => e.NeedsMalformed styles sheet scope frame

/-- With an indent that can be written out the only fault of a block is a malformed style. -/
theorem Block.exists_malformed_of_events_eq_error (h : settings.HasIndent) {width : Option Int}
    {block : Block} {fault : PageFault}
    (hfault : block.events styles settings scope (.ofOption width) = .error fault) :
    ∃ style, fault = .malformedStyle style := by
  cases block with
  | markdown text => exact absurd hfault (by simp [events])
  | entry e =>
    rcases events_entry_eq_error_iff.1 hfault with ⟨layout, hlayout, -⟩ | ⟨_, style, -, -, hstyle⟩
    · rw [e.render_eq_ok h] at hlayout
      exact absurd hlayout (by simp)
    · exact ⟨style, hstyle⟩

theorem Block.exists_events_eq_malformed_iff {width : Option Int} {block : Block} :
    (∃ style, block.events styles settings scope (.ofOption width) =
        .error (.malformedStyle style)) ↔
      settings.HasIndent ∧
        block.NeedsMalformed styles settings.styles scope (settings.frame width) := by
  cases block with
  | markdown text => simp [events, NeedsMalformed]
  | entry e =>
    rw [NeedsMalformed, ← Entry.exists_styled_eq_error_iff]
    constructor
    · rintro ⟨style, hstyle⟩
      rcases events_entry_eq_error_iff.1 hstyle with
        ⟨_, -, hfault⟩ | ⟨rendered, fault, hrender, hfault, -⟩
      · exact absurd hfault (by simp)
      · have hindent := (Entry.exists_render_iff.1 ⟨rendered, hrender⟩).1
        rw [e.render_eq_ok hindent] at hrender
        obtain rfl := Except.ok.inj hrender
        exact ⟨hindent, fault, hfault⟩
    · rintro ⟨hindent, fault, hfault⟩
      exact ⟨fault, events_entry_eq_error_iff.2
        (Or.inr ⟨_, fault, e.render_eq_ok hindent width, hfault, rfl⟩)⟩

namespace ModuleDocs

variable {console : Console σ}

theorem exists_malformed_iff (console : Console σ) (m : ModuleDocs) (settings : Settings)
    (width : Option Int) :
    (∃ style, (m.display console settings (.ofOption width)).fault =
        some (.malformedStyle style)) ↔
      console.Takes m.title ∧ settings.HasIndent ∧
        ∃ block ∈ m.page,
          block.NeedsMalformed console.styles settings.styles m.scope (settings.frame width) := by
  cases htitle : console.refusal? m.title with
  | some fault => simp [display_of_refusal htitle, Console.Takes, htitle]
  | none =>
    rw [display_of_takes htitle]
    refine Iff.trans ?_ (and_iff_right htitle).symm
    show (∃ style,
      (showBlocks console.styles settings m.scope (.ofOption width) m.page).fault = _) ↔ _
    constructor
    · rintro ⟨style, hfault⟩
      obtain ⟨before, block, after, shown, hpage, -, hblock, -⟩ := showBlocks_eq_of_fault hfault
      obtain ⟨hindent, hneeds⟩ := Block.exists_events_eq_malformed_iff.1 ⟨style, hblock⟩
      exact ⟨hindent, block, by simp [hpage], hneeds⟩
    · rintro ⟨hindent, block, hblock, hneeds⟩
      obtain ⟨style, hstyle⟩ := Block.exists_events_eq_malformed_iff.2 ⟨hindent, hneeds⟩
      cases hfault :
          (showBlocks console.styles settings m.scope (.ofOption width) m.page).fault with
      | none =>
        obtain ⟨events, hevents⟩ := showBlocks_fault_eq_none_iff.1 hfault block hblock
        rw [hstyle] at hevents
        exact absurd hevents (by simp)
      | some fault =>
        obtain ⟨_, culprit, _, _, -, -, hculprit, -⟩ := showBlocks_eq_of_fault hfault
        obtain ⟨style, rfl⟩ := Block.exists_malformed_of_events_eq_error hindent hculprit
        exact ⟨style, rfl⟩

theorem exists_needsMalformed_iff {m : ModuleDocs} :
    (∃ block ∈ m.page, block.NeedsMalformed styles sheet scope frame) ↔
      ∃ e ∈ m.pageEntries, e.NeedsMalformed styles sheet scope frame := by
  constructor
  · rintro ⟨block, hblock, hneeds⟩
    cases block with
    | markdown text => exact absurd hneeds id
    | entry e => exact ⟨e, mem_pageEntries_iff.2 hblock, hneeds⟩
  · rintro ⟨e, he, hneeds⟩
    exact ⟨.entry e, mem_pageEntries_iff.1 he, hneeds⟩

/-- The first entry has no reference and is shown; the second ends the page. -/
example :
    let m : ModuleDocs :=
      { name := "M".toList
        comment := "Prose\n@docs f, g".toList
        customs := [{ name := "T".toList }]
        values := [{ name := "f".toList, type := "a".toList },
          { name := "g".toList, type := "T".toList }] }
    let display := m.display .plain { styles := { link := "on".toList } } .usual
    display.fault = some (.malformedStyle ⟨"on".toList⟩) ∧ display.events.length = 3 := by
  decide +kernel

end ModuleDocs

end PackageDocs
