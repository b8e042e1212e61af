import PackageDocs.Page.Plain
import PackageDocs.Proofs.Json.Views
import PackageDocs.Proofs.Page.Display
import PackageDocs.Proofs.Style.Styled

/-!
# The page and the record of a module

A module is shown on the console and recorded as data. The two are made in different ways
and in different orders, and they tell the same about every entry: the same signature, up
to the characters that no styled text holds, the same fixity and the same comment.

## Main definitions

- `shownTexts`: the texts among events, with the comments directly behind them
- `Json.shown`: how an entry of a record is shown

## Main results

- `shownTexts_showBlocks`: what blocks show
- `ModuleDocs.display_agrees`: the page shows the entries of the record
-/

namespace PackageDocs

open StyledText

variable {σ : Type}

/-- The comment that the events start with. -/
def commentAhead : List (Event σ) → Option Text
  | .padded _ _ _ _ comment :: _ => some comment
  | _ => none

/-- The texts among the events, each with the comment that stands directly behind it. -/
def shownTexts : List (Event σ) → List (Text × Option Text)
  | [] => []
  | .styled t :: rest => (t.text, commentAhead rest) :: shownTexts rest
  | _ :: rest => shownTexts rest

/-- A text with the fixity, if there is one, four spaces behind it. -/
def withFixity (t : Text) : Option Text → Text
  | none => t
  | some fixity => t ++ "    ".toList ++ fixity

/-- The comment, unless it is blank. -/
def proseOf (comment : Text) : Option Text :=
  if (Text.trim comment).isEmpty then none else some comment

/-- How an entry of a record is shown: as its signature without the characters that no
styled text holds, with its fixity, and with its comment unless that is blank. -/
def Json.shown (entry : Json) : Text × Option Text :=
  (withFixity (kept (entry.part "signature").text) (entry.part "fixity").text?,
    proseOf (entry.part "comment").text)

theorem RenderedEntry.shown_record (r : RenderedEntry) :
    r.record.shown = (withFixity (kept r.signature.plain) r.fixity, proseOf r.comment) := by
  obtain ⟨name, signature, fixity, comment⟩ := r
  cases fixity <;> rfl

variable {styles : StyleLanguage σ} {settings : Settings} {scope : Scope} {width : Width}

theorem RenderedEntry.exists_styled {sheet : StyleSheet} (h : sheet.WellFormed styles)
    {r : RenderedEntry} (hfixity : ∀ fixity ∈ r.fixity, kept fixity = fixity) :
    ∃ styled, r.styled styles sheet = .ok styled ∧
      styled.text = withFixity (kept r.signature.plain) r.fixity := by
  obtain ⟨signature, hsignature, htext⟩ := h.exists_ofDocument r.signature
  cases hr : r.fixity with
  | none =>
    refine ⟨signature, ?_, htext⟩
    rw [RenderedEntry.styled, hsignature, hr]
    rfl
  | some fixity =>
    obtain ⟨style, hstyle⟩ := h.keyword
    refine ⟨signature.push ("    ".toList ++ fixity) style, ?_, ?_⟩
    · rw [RenderedEntry.styled, hsignature, hr]
      exact bind_eq_ok_iff.2 ⟨signature, rfl, bind_eq_ok_iff.2 ⟨style, hstyle, rfl⟩⟩
    · show signature.text ++ kept ("    ".toList ++ fixity) = _
      rw [htext, kept_append, hfixity fixity hr, withFixity, List.append_assoc]
      rfl

theorem Entry.kept_fixity {e : Entry} {fixity : Text} (h : fixity ∈ e.fixity) :
    kept fixity = fixity := by
  cases e with
  | value v => exact v.kept_fixity h
  | _ => exact absurd h (by simp [Entry.fixity])

/-- An entry that is laid out shows its text and, unless it is blank, its comment. -/
theorem Block.exists_events_entry (h : settings.styles.WellFormed styles) {frame : Frame}
    {e : Entry} (hrender : e.render settings width scope = .ok (e.rendered scope frame)) :
    ∃ styled, (Block.entry e).events styles settings scope width =
        .ok (.styled styled :: commentEvents settings.indent e.comment) ∧
      styled.text = withFixity (kept (e.document scope frame).plain) e.fixity := by
  obtain ⟨styled, hstyled, htext⟩ :=
    RenderedEntry.exists_styled h (r := e.rendered scope frame) fun _ => e.kept_fixity
  exact ⟨styled, Block.events_entry_eq_ok_iff.2 ⟨_, styled, hrender, hstyled, rfl⟩, htext⟩

-- ═════════════════════════════════════════════════════════════════════════════
-- What blocks show
-- ═════════════════════════════════════════════════════════════════════════════

/-- What an entry shows in a frame. -/
def Entry.shown (scope : Scope) (frame : Frame) (e : Entry) : Text × Option Text :=
  (withFixity (kept (e.document scope frame).plain) e.fixity, proseOf e.comment)

theorem Entry.shown_record_rendered (scope : Scope) (frame : Frame) (e : Entry) :
    (e.rendered scope frame).record.shown = e.shown scope frame :=
  (e.rendered scope frame).shown_record

theorem shownTexts_commentEvents_append (indent : Int) (comment : Text) (later : List (Event σ)) :
    shownTexts (commentEvents indent comment ++ later) = shownTexts later := by
  unfold commentEvents
  split <;> rfl

/-- Behind a text stands its comment; if that is blank, nothing must follow that could be
taken for it. -/
theorem commentAhead_commentEvents_append (indent : Int) (comment : Text) {later : List (Event σ)}
    (h : commentAhead later = none) :
    commentAhead (commentEvents indent comment ++ later) = proseOf comment := by
  unfold commentEvents proseOf
  split
  · exact h
  · rfl

/-- No block starts with a comment. -/
theorem commentAhead_showBlocks (styles : StyleLanguage σ) (settings : Settings)
    (scope : Scope) (width : Width) (blocks : List Block) :
    commentAhead (showBlocks styles settings scope width blocks).events = none := by
  cases blocks with
  | nil => rfl
  | cons block rest =>
    cases block with
    | markdown text =>
      rw [showBlocks_markdown_cons]
      rfl
    | entry e =>
      cases hevents : (Block.entry e).events styles settings scope width with
      | error fault =>
        rw [showBlocks_cons_of_error hevents]
        rfl
      | ok events =>
        obtain ⟨_, styled, -, -, rfl⟩ := Block.events_entry_eq_ok_iff.1 hevents
        rw [showBlocks_cons_of_ok hevents]
        rfl

/-- Blocks whose entries are laid out in a frame show them, each in its place. -/
theorem shownTexts_showBlocks (h : settings.styles.WellFormed styles) {frame : Frame}
    {blocks : List Block}
    (hrender : ∀ e ∈ blocks.filterMap Block.entry?,
      e.render settings width scope = .ok (e.rendered scope frame)) :
    (showBlocks styles settings scope width blocks).fault = none ∧
      shownTexts (showBlocks styles settings scope width blocks).events =
        (blocks.filterMap Block.entry?).map (Entry.shown scope frame) := by
  induction blocks with
  | nil => exact ⟨rfl, rfl⟩
  | cons block rest ih =>
    cases block with
    | markdown text =>
      rw [showBlocks_markdown_cons]
      exact ih hrender
    | entry e =>
      obtain ⟨styled, hevents, htext⟩ :=
        Block.exists_events_entry h (hrender e List.mem_cons_self)
      obtain ⟨hfault, hshown⟩ :=
        ih fun other hother => hrender other (List.mem_cons_of_mem e hother)
      rw [showBlocks_cons_of_ok hevents]
      refine ⟨hfault, ?_⟩
      have hcomment := commentAhead_commentEvents_append settings.indent e.comment
        (commentAhead_showBlocks styles settings scope width rest)
      show (styled.text, commentAhead (_ ++ _)) :: shownTexts (_ ++ _) = _
      rw [shownTexts_commentEvents_append, hcomment, htext, hshown]
      rfl

/-- Blocks whose entries cannot be laid out show none of them. -/
theorem shownTexts_showBlocks_of_error {blocks : List Block}
    (hrender : ∀ e ∈ blocks.filterMap Block.entry?,
      ∃ fault, e.render settings width scope = .error fault) :
    shownTexts (showBlocks styles settings scope width blocks).events = [] := by
  induction blocks with
  | nil => rfl
  | cons block rest ih =>
    cases block with
    | markdown text =>
      rw [showBlocks_markdown_cons]
      exact ih hrender
    | entry e =>
      obtain ⟨fault, hfault⟩ := hrender e List.mem_cons_self
      have hevents :
          (Block.entry e).events styles settings scope width = .error (.layout fault) := by
        rw [Block.events, hfault]
        rfl
      rw [showBlocks_cons_of_error hevents]
      rfl

-- ═════════════════════════════════════════════════════════════════════════════
-- Page and record
-- ═════════════════════════════════════════════════════════════════════════════

theorem Entry.exists_render_eq_error (h : ¬ settings.HasIndent) (e : Entry) :
    ∃ fault, e.render settings width scope = .error fault := by
  cases hrender : e.render settings width scope with
  | error fault => exact ⟨fault, rfl⟩
  | ok rendered => exact absurd (Entry.exists_render_iff.1 ⟨rendered, hrender⟩).1 h

namespace ModuleDocs

variable {m : ModuleDocs} {console : Console σ}

/-- The entries that the console shows are those of the record, in some order. -/
theorem perm_shownTexts (htitle : console.Takes m.title)
    (hstyles : settings.styles.WellFormed console.styles) (hnames : m.names.Nodup) (frame : Frame)
    (hrender : ∀ e ∈ m.entries, e.render settings width m.scope = .ok (e.rendered m.scope frame))
    (hmodule : m.render settings width = .ok (m.entries.map (Entry.rendered m.scope frame))) :
    (m.display console settings width).fault = none ∧
      ∃ record, m.record settings width = .ok record ∧
        (shownTexts (m.display console settings width).events).Perm
          ((record.part "entries").items.map Json.shown) := by
  have hpage : ∀ e ∈ m.page.filterMap Block.entry?,
      e.render settings width m.scope = .ok (e.rendered m.scope frame) :=
    fun e he => hrender e ((perm_pageEntries hnames).mem_iff.1 he)
  obtain ⟨hfault, hshown⟩ := shownTexts_showBlocks hstyles hpage
  rw [display_of_takes htitle]
  refine ⟨hfault, _, by rw [record, hmodule]; rfl, ?_⟩
  have hrecord : ((m.entries.map (Entry.rendered m.scope frame)).map RenderedEntry.record).map
      Json.shown = m.entries.map (Entry.shown m.scope frame) := by
    rw [List.map_map, List.map_map]
    exact List.map_congr_left fun e _ => e.shown_record_rendered m.scope frame
  show (shownTexts (showBlocks console.styles settings m.scope width m.page).events).Perm
    (((m.entries.map _).map RenderedEntry.record).map Json.shown)
  rw [hshown, hrecord]
  exact (perm_pageEntries hnames).map _

theorem record_eq_error (m : ModuleDocs) (hentries : m.entries ≠ []) (h : ¬ settings.HasIndent)
    (width : Option Int) : ∃ fault, m.record settings (.ofOption width) = .error fault := by
  obtain ⟨fault, hfault⟩ := m.render_eq_error hentries h width
  exact ⟨fault, by rw [record, hfault]; rfl⟩

/-- Without an indent no entry is shown, with or without a title. -/
theorem shownTexts_display_of_not_hasIndent (h : ¬ settings.HasIndent) :
    shownTexts (m.display console settings width).events = [] := by
  cases htitle : console.refusal? m.title with
  | some fault =>
    rw [display_of_refusal htitle]
    rfl
  | none =>
    rw [display_of_takes htitle]
    exact shownTexts_showBlocks_of_error fun e _ => e.exists_render_eq_error h

/-- **The page and the record agree.** With distinct names and well-formed styles, in every
width, the page of a module is shown to its end and shows the entries of the record, up to
order, each with its text and its comment. This needs a title that the console takes, and an
indent that can be written out, if there are entries at all. Under another indent there is
no record, and no entry is shown; a title that is refused leaves nothing of the page. -/
theorem display_agrees (console : Console σ) (m : ModuleDocs) (hnames : m.names.Nodup)
    (settings : Settings) (hstyles : settings.styles.WellFormed console.styles)
    (width : Option Int) :
    let display := m.display console settings (.ofOption width)
    (console.Takes m.title → m.entries = [] ∨ settings.HasIndent →
      display.fault = none ∧
        ∃ record, m.record settings (.ofOption width) = .ok record ∧
          (shownTexts display.events).Perm ((record.part "entries").items.map Json.shown)) ∧
    (m.entries ≠ [] ∧ ¬ settings.HasIndent →
      (∃ fault, display.fault = some fault) ∧
        (∃ fault, m.record settings (.ofOption width) = .error fault) ∧
        shownTexts display.events = []) ∧
    ∀ fault, console.refusal? m.title = some fault →
      display = { events := [], fault := some (.malformedTitle fault) } := by
  intro display
  refine ⟨?_, ?_, fun fault => display_of_refusal⟩
  · rintro htitle (hentries | hindent)
    · apply perm_shownTexts htitle hstyles hnames (settings.frame width)
      · simp [hentries]
      · rw [render, hentries]
        rfl
    · exact perm_shownTexts htitle hstyles hnames (settings.frame width)
        (fun e _ => e.render_eq_ok hindent width) (m.render_eq_ok hindent width)
  · rintro ⟨hentries, hindent⟩
    obtain ⟨fault, hfault⟩ := m.record_eq_error hentries hindent width
    refine ⟨?_, ⟨fault, hfault⟩, shownTexts_display_of_not_hasIndent hindent⟩
    cases hdisplay : display.fault with
    | some fault => exact ⟨fault, rfl⟩
    | none =>
      -- a page that was shown to its end would have a record
      obtain ⟨record, hrecord⟩ := exists_record_of_display hdisplay
      rw [hfault] at hrecord
      exact absurd hrecord (by simp)

/-- An operator that is listed before an alias, with a character that no styled text holds
in its type. -/
theorem display_agrees_of_listing :
    let m : ModuleDocs :=
      { name := "M".toList
        comment := "@docs (|>), T".toList
        aliases := [{ name := "T".toList, type := "Int".toList }]
        values := [{
          name := "|>".toList
          comment := "Feeds it.".toList
          type := "a -> M.T\x07".toList
          associativity := some "left".toList
          precedence := some (.level 0) }] }
    (m.names.Nodup ∧ StyleSheet.WellFormed Console.plain.styles {}) ∧
      ∃ record, m.record {} (.ofOption (some 0)) = .ok record ∧
        (shownTexts (m.display .plain {} (.ofOption (some 0))).events).Perm
          ((record.part "entries").items.map Json.shown) := by
  intro m
  have hnames : m.names.Nodup := by decide
  have hstyles := StyleSheet.wellFormed_default
  obtain ⟨hagree, -⟩ := m.display_agrees .plain hnames {} hstyles (some 0)
  exact ⟨⟨hnames, hstyles⟩, (hagree rfl (Or.inr (by decide))).2⟩

/-- An indent beyond every machine integer leaves nothing to agree on, and neither does a
title that the console refuses, here for a closing tag in the name of the module. -/
theorem not_display_agrees :
    let agrees (console : Console Style) (settings : Settings) (m : ModuleDocs) : Prop :=
      ∃ record, m.record settings (.ofOption none) = .ok record ∧
        (shownTexts (m.display console settings (.ofOption none)).events).Perm
          ((record.part "entries").items.map Json.shown)
    let strict : Console Style :=
      { Console.plain with
        refusal? := fun t => if "[/x]".toList <:+: t then some ⟨"closing tag".toList⟩ else none }
    (¬ ∀ (settings : Settings) (m : ModuleDocs), m.names.Nodup →
      settings.styles.WellFormed Console.plain.styles → agrees .plain settings m) ∧
    ¬ ∀ (settings : Settings) (m : ModuleDocs), m.names.Nodup →
      settings.styles.WellFormed strict.styles → settings.HasIndent → agrees strict settings m := by
  intro agrees strict
  constructor
  · intro h
    let m : ModuleDocs :=
      { name := "M".toList, values := [{ name := "f".toList, type := "a".toList }] }
    let settings : Settings := { indent := 9223372036854775808 }
    have hindent : ¬ settings.HasIndent := by decide
    obtain ⟨fault, hfault⟩ := m.record_eq_error (by decide) hindent none
    obtain ⟨record, hrecord, -⟩ := h settings m (by decide) StyleSheet.wellFormed_default
    rw [hfault] at hrecord
    exact absurd hrecord (by simp)
  · intro h
    let m : ModuleDocs :=
      { name := "[/x]".toList, values := [{ name := "f".toList, type := "a".toList }] }
    obtain ⟨record, hrecord, hperm⟩ :=
      h {} m (by decide) StyleSheet.wellFormed_default (by decide)
    have htitle : strict.refusal? m.title = some ⟨"closing tag".toList⟩ := by decide
    have hitems : m.record {} (.ofOption none) = .ok (.obj [
        ("name".toList, .str "[/x]".toList),
        ("entries".toList, .arr [RenderedEntry.record
          ((Entry.value { name := "f".toList, type := "a".toList }).rendered m.scope
            { width := 80, indent := 4 })])]) := rfl
    obtain rfl := Except.ok.inj (hitems.symm.trans hrecord)
    rw [display_of_refusal htitle] at hperm
    exact absurd hperm.length_eq (by decide)

end ModuleDocs

end PackageDocs
