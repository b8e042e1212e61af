import PackageDocs.Page.Display
import PackageDocs.Proofs.Entry.Rendering
import PackageDocs.Proofs.Except
import PackageDocs.Proofs.Page.Entries

/-!
# Pages and records

A page is shown block by block, up to the first block at fault. Where a page can be shown
to its end, all entries of the module can be laid out: those on the page because they were
shown, and the others because an entry of the same name was.

## Main results

- `showBlocks_fault_eq_none_iff`, `ModuleDocs.display_fault_eq_none_iff`: when a page is shown
  to its end
- `ModuleDocs.exists_record_of_display`: a module whose page was shown has a record
-/

namespace PackageDocs

variable {σ : Type} {styles : StyleLanguage σ} {settings : Settings} {scope : Scope} {width : Width}

-- ═════════════════════════════════════════════════════════════════════════════
-- Blocks
-- ═════════════════════════════════════════════════════════════════════════════

theorem showBlocks_cons_of_ok {block : Block} {events : List (Event σ)}
    (h : block.events styles settings scope width = .ok events) (rest : List Block) :
    showBlocks styles settings scope width (block :: rest) =
      { showBlocks styles settings scope width rest with
        events := events ++ (showBlocks styles settings scope width rest).events } := by
  rw [showBlocks, h]

theorem showBlocks_cons_of_error {block : Block} {fault : PageFault}
    (h : block.events styles settings scope width = .error fault) (rest : List Block) :
    showBlocks styles settings scope width (block :: rest) =
      { events := [], fault := some fault } := by
  rw [showBlocks, h]

@[simp] theorem showBlocks_markdown_cons (text : Text) (rest : List Block) :
    showBlocks styles settings scope width (.markdown text :: rest) =
      { showBlocks styles settings scope width rest with
        events := .markdown text :: (showBlocks styles settings scope width rest).events } := rfl

/-- Blocks are shown to the end if and only if none of them is at fault. -/
theorem showBlocks_fault_eq_none_iff {blocks : List Block} :
    (showBlocks styles settings scope width blocks).fault = none ↔
      ∀ block ∈ blocks, ∃ events, block.events styles settings scope width = .ok events := by
  induction blocks with
  | nil => simp [showBlocks]
  | cons block rest ih =>
    rw [List.forall_mem_cons]
    cases hblock : block.events styles settings scope width with
    | error fault => simp [showBlocks_cons_of_error hblock]
    | ok events =>
      rw [showBlocks_cons_of_ok hblock]
      show (showBlocks styles settings scope width rest).fault = none ↔ _
      simp [ih]

theorem mem_pageEntries_iff {m : ModuleDocs} {e : Entry} :
    e ∈ m.pageEntries ↔ .entry e ∈ m.page := by
  rw [ModuleDocs.pageEntries, List.mem_filterMap]
  constructor
  · rintro ⟨block, hblock, hentry⟩
    cases block with
    | markdown text => exact absurd hentry (by simp [Block.entry?])
    | entry other =>
      obtain rfl : other = e := Option.some.inj hentry
      exact hblock
  · intro h
    exact ⟨_, h, rfl⟩

/-- What the block of an entry shows: the text of the entry and then its comment. -/
theorem Block.events_entry_eq_ok_iff {e : Entry} {events : List (Event σ)} :
    (Block.entry e).events styles settings scope width = .ok events ↔
      ∃ rendered styled, e.render settings width scope = .ok rendered ∧
        rendered.styled styles settings.styles = .ok styled ∧
        events = .styled styled :: commentEvents settings.indent rendered.comment := by
  simp only [Block.events, bind_eq_ok_iff, mapError_eq_ok_iff, pure_eq_ok_iff]
  constructor
  · rintro ⟨rendered, hrendered, styled, hstyled, rfl⟩
    exact ⟨rendered, styled, hrendered, hstyled, rfl⟩
  · rintro ⟨rendered, styled, hrendered, hstyled, rfl⟩
    exact ⟨rendered, hrendered, styled, hstyled, rfl⟩

namespace ModuleDocs

variable {m : ModuleDocs} {console : Console σ}

theorem display_of_takes (h : console.Takes m.title) :
    m.display console settings width =
      { showBlocks console.styles settings m.scope width m.page with
        events := .rule m.title ::
          (showBlocks console.styles settings m.scope width m.page).events } := by
  rw [display, h]

theorem display_of_refusal {fault : MalformedMarkup} (h : console.refusal? m.title = some fault) :
    m.display console settings width =
      { events := [], fault := some (.malformedTitle fault) } := by
  rw [display, h]

/-- A page is shown to its end if and only if its title and its blocks are. -/
theorem display_fault_eq_none_iff :
    (m.display console settings width).fault = none ↔
      console.Takes m.title ∧
        (showBlocks console.styles settings m.scope width m.page).fault = none := by
  cases htitle : console.refusal? m.title with
  | some fault => simp [display_of_refusal htitle, Console.Takes, htitle]
  | none =>
    rw [display_of_takes htitle]
    exact (and_iff_right htitle).symm

theorem exists_record {settings : Settings} {width : Width}
    (h : ∀ e ∈ m.entries, ∃ rendered, e.render settings width m.scope = .ok rendered) :
    ∃ record, m.record settings width = .ok record := by
  obtain ⟨rendered, hrendered⟩ := exists_mapM_eq_ok h
  rw [record, render, hrendered]
  exact ⟨_, rfl⟩

-- ═════════════════════════════════════════════════════════════════════════════
-- From the page to the record
-- ═════════════════════════════════════════════════════════════════════════════

/-- Values stand behind all other entries. -/
theorem pairwise_entries (m : ModuleDocs) :
    m.entries.Pairwise fun e later => e.NeedsWidth → later.NeedsWidth := by
  have hothers : ∀ e ∈ m.aliases.map Entry.alias ++ m.customs.map Entry.custom,
      ¬ e.NeedsWidth := by
    intro e he
    rcases List.mem_append.1 he with he | he
    · obtain ⟨entry, -, rfl⟩ := List.mem_map.1 he
      exact id
    · obtain ⟨entry, -, rfl⟩ := List.mem_map.1 he
      exact id
  have hvalues : ∀ e ∈ m.values.map Entry.value, e.NeedsWidth := by
    intro e he
    obtain ⟨entry, -, rfl⟩ := List.mem_map.1 he
    trivial
  rw [entries, List.pairwise_append]
  refine ⟨?_, ?_, ?_⟩
  · exact List.pairwise_of_forall_mem_list fun e he _ _ hneeds => absurd hneeds (hothers e he)
  · exact List.pairwise_of_forall_mem_list fun _ _ later hlater _ => hvalues later hlater
  · exact fun e he _ _ hneeds => absurd hneeds (hothers e he)

/-- Where an entry needs a width, the entry documented under its name needs one: it is the
entry itself or a later one. -/
theorem needsWidth_of_entry?_eq_some {e shown : Entry} (he : e ∈ m.entries)
    (hshown : m.entry? e.name = some shown) (hneeds : e.NeedsWidth) : shown.NeedsWidth := by
  obtain ⟨-, before, after, hentries, hafter⟩ := entry?_eq_some_iff.1 hshown
  have hpairwise := m.pairwise_entries
  rw [hentries] at he hpairwise
  rcases List.mem_append.1 he with hbefore | hrest
  · exact (List.pairwise_append.1 hpairwise).2.2 e hbefore shown List.mem_cons_self hneeds
  · rcases List.mem_cons.1 hrest with rfl | hlater
    · exact hneeds
    · exact absurd rfl (hafter e hlater)

/-- A module whose page is shown to the end has a record. -/
theorem exists_record_of_display (h : (m.display console settings width).fault = none) :
    ∃ record, m.record settings width = .ok record := by
  have hblocks := showBlocks_fault_eq_none_iff.1 (display_fault_eq_none_iff.1 h).2
  have hpage : ∀ shown ∈ m.pageEntries,
      ∃ rendered, shown.render settings width m.scope = .ok rendered := by
    intro shown hshown
    obtain ⟨events, hevents⟩ := hblocks _ (mem_pageEntries_iff.1 hshown)
    obtain ⟨rendered, _, hrendered, -⟩ := Block.events_entry_eq_ok_iff.1 hevents
    exact ⟨rendered, hrendered⟩
  apply exists_record
  intro e he
  have hname : e.name ∈ m.pageEntries.map Entry.name :=
    mem_names_pageEntries.2 (List.mem_map_of_mem he)
  obtain ⟨shown, hshown, heq⟩ := List.mem_map.1 hname
  obtain ⟨hindent, hwidth⟩ := Entry.exists_render_iff.1 (hpage shown hshown)
  have hlookup := entry?_of_mem_pageEntries hshown
  rw [heq] at hlookup
  refine Entry.exists_render_iff.2 ⟨hindent, fun hmissing hneeds => ?_⟩
  exact hwidth hmissing (needsWidth_of_entry?_eq_some he hlookup hneeds)

end ModuleDocs

end PackageDocs
