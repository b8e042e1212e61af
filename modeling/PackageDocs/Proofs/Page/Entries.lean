import Mathlib.Data.List.Nodup
import PackageDocs.Page.Basic
import PackageDocs.Proofs.Text.Names

/-!
# Entries on a page

The page of a module shows one entry for each name. The names on the listings of the
comment come first, where they are mentioned first; the others follow, ordered by code
point.

## Main definitions

- `ModuleDocs.pageEntries`: the entries on the page, in order
- `ModuleDocs.listings`, `ModuleDocs.listedNames`: the listings of the comment, and the
  names on them

## Main results

- `ModuleDocs.entry?_eq_some_iff`: the last entry of a name is documented under it
- `ModuleDocs.entries_listed`: the entries that the sections of the comment show
- `ModuleDocs.perm_pageEntries`: with distinct names the page shows all entries
- `ModuleDocs.page_entries`: the entries on a page, their order, and the warnings
-/

namespace PackageDocs

open Text

namespace Comment

theorem mentions_sections (lines : List Text) :
    mentions (sections lines) =
      (lines.filter isListing).flatMap fun line => firstMentions (listedNames line) := by
  induction lines with
  | nil => rfl
  | cons line rest ih =>
    unfold sections
    by_cases hline : isListing line = true
    · rw [if_pos hline, List.filter_cons, if_pos hline, List.flatMap_cons, ← ih]
      rfl
    · rw [if_neg hline, List.filter_cons, if_neg hline, ← ih]
      -- A further prose line names nothing, whether or not it starts a run.
      split
      · next lines later heq =>
        rw [heq]
        rfl
      · rfl

theorem nodup_names_of_mem_sections {lines : List Text} {s : Section} (h : s ∈ sections lines) :
    s.names.Nodup := by
  induction lines generalizing s with
  | nil => exact absurd h List.not_mem_nil
  | cons line rest ih =>
    unfold sections at h
    split at h
    · rcases List.mem_cons.1 h with rfl | h
      · exact nodup_firstMentions _
      · exact ih h
    · split at h
      · next lines later heq =>
        rcases List.mem_cons.1 h with rfl | h
        · exact List.nodup_nil
        · exact ih (heq ▸ List.mem_cons_of_mem _ h)
      · rcases List.mem_cons.1 h with rfl | h
        · exact List.nodup_nil
        · exact ih h

end Comment

open Comment

/-- The entry that the block shows. -/
def Block.entry? : Block → Option Entry
  | .markdown _ => none
  | .entry e => some e

theorem filterMap_entry?_map_entry (es : List Entry) :
    (es.map Block.entry).filterMap Block.entry? = es := by
  rw [List.filterMap_map]
  exact List.filterMap_some

namespace ModuleDocs

variable (m : ModuleDocs)

/-- The entries on the page, in order. -/
def pageEntries : List Entry :=
  m.page.filterMap Block.entry?

/-- The lines of the comment that name entries. -/
def listings : List Text :=
  (lines m.comment).filter isListing

/-- The names on the listings, as often as they stand there. -/
def listedNames : List Text :=
  m.listings.flatMap Comment.listedNames

theorem firstMentions_mentions_sections :
    firstMentions (mentions m.sections) = firstMentions m.listedNames := by
  rw [sections, mentions_sections, firstMentions_flatMap]
  rfl

theorem mem_mentions_sections {name : Text} :
    name ∈ mentions m.sections ↔ name ∈ m.listedNames := by
  rw [← mem_firstMentions, firstMentions_mentions_sections, mem_firstMentions]

-- ═════════════════════════════════════════════════════════════════════════════
-- Entries under their names
-- ═════════════════════════════════════════════════════════════════════════════

/-- The entry under a name is the last one that bears it. -/
theorem entry?_eq_some_iff {m : ModuleDocs} {name : Text} {e : Entry} :
    m.entry? name = some e ↔
      e.name = name ∧ ∃ before after, m.entries = before ++ e :: after ∧
        ∀ later ∈ after, later.name ≠ name := by
  unfold entry?
  rw [List.getLast?_filter, List.find?_eq_some_iff_append, beq_iff_eq]
  constructor
  · rintro ⟨hname, after, before, hentries, hafter⟩
    refine ⟨hname, before.reverse, after.reverse, ?_, ?_⟩
    · rw [← List.reverse_reverse m.entries, hentries]
      simp
    · intro later hlater
      simpa using hafter later (List.mem_reverse.1 hlater)
  · rintro ⟨hname, before, after, hentries, hafter⟩
    refine ⟨hname, after.reverse, before.reverse, ?_, ?_⟩
    · rw [hentries]
      simp
    · intro later hlater
      simpa using hafter later (List.mem_reverse.1 hlater)

theorem mem_entries_of_entry?_eq_some {m : ModuleDocs} {name : Text} {e : Entry}
    (h : m.entry? name = some e) : e ∈ m.entries := by
  obtain ⟨-, before, after, hentries, -⟩ := entry?_eq_some_iff.1 h
  rw [hentries]
  exact List.mem_append_right _ List.mem_cons_self

theorem exists_entry?_iff {m : ModuleDocs} {name : Text} :
    (∃ e, m.entry? name = some e) ↔ name ∈ m.names := by
  rw [← Option.isSome_iff_exists, entry?, List.getLast?_isSome, names, List.mem_map]
  constructor
  · intro h
    obtain ⟨e, he⟩ := List.exists_mem_of_ne_nil _ h
    obtain ⟨hmem, hname⟩ := List.mem_filter.1 he
    exact ⟨e, hmem, beq_iff_eq.1 hname⟩
  · rintro ⟨e, hmem, hname⟩
    exact List.ne_nil_of_mem (List.mem_filter.2 ⟨hmem, beq_iff_eq.2 hname⟩)

/-- Looking names up leaves out those that no entry bears. -/
theorem names_filterMap (names : List Text) :
    (names.filterMap m.entry?).map Entry.name = names.filter (· ∈ m.names) := by
  induction names with
  | nil => rfl
  | cons name rest ih =>
    cases hentry : m.entry? name with
    | none =>
      have hname : name ∉ m.names := by
        intro hmem
        obtain ⟨e, he⟩ := exists_entry?_iff.2 hmem
        rw [hentry] at he
        exact absurd he (by simp)
      rw [List.filterMap_cons_none hentry, ih, List.filter_cons_of_neg (by simpa using hname)]
    | some e =>
      have hname : name ∈ m.names := exists_entry?_iff.1 ⟨e, hentry⟩
      rw [List.filterMap_cons_some hentry, List.map_cons, ih, (entry?_eq_some_iff.1 hentry).1,
        List.filter_cons_of_pos (by simpa using hname)]

-- ═════════════════════════════════════════════════════════════════════════════
-- Entries of the sections
-- ═════════════════════════════════════════════════════════════════════════════

theorem filterMap_entry?_proseBlocks (lines : List Text) :
    (proseBlocks lines).filterMap Block.entry? = [] := by
  unfold proseBlocks
  dsimp only
  split <;> rfl

/-- Sections show the entries that they mention first and that are not placed yet. -/
theorem entries_sectionBlocks (placed : List Text) {sections : List Comment.Section}
    (hnodup : ∀ s ∈ sections, s.names.Nodup) :
    (m.sectionBlocks placed sections).filterMap Block.entry? =
      ((firstMentions (mentions sections)).filter (· ∉ placed)).filterMap m.entry? := by
  induction sections generalizing placed with
  | nil => rfl
  | cons s rest ih =>
    have hrest := fun placed => ih placed fun s hs => hnodup s (List.mem_cons_of_mem _ hs)
    cases s with
    | prose lines =>
      rw [sectionBlocks, List.filterMap_append, filterMap_entry?_proseBlocks, hrest]
      rfl
    | listing names =>
      have hnames : firstMentions names = names :=
        firstMentions_of_nodup (hnodup (.listing names) List.mem_cons_self)
      have hmentions : mentions (.listing names :: rest) = names ++ mentions rest := rfl
      rw [sectionBlocks, List.filterMap_append, filterMap_entry?_map_entry, hrest, hmentions,
        firstMentions_append, hnames, List.filter_append, List.filterMap_append, List.filter_filter]
      congr 2
      apply List.filter_congr
      intro name _
      by_cases hplaced : name ∈ placed <;> simp [hplaced]

/-- The sections of the comment show the listed entries. -/
theorem entries_listed :
    (m.sectionBlocks [] m.sections).filterMap Block.entry? =
      (firstMentions m.listedNames).filterMap m.entry? := by
  have hnodup : ∀ s ∈ m.sections, s.names.Nodup := fun s => nodup_names_of_mem_sections
  rw [m.entries_sectionBlocks [] hnodup, firstMentions_mentions_sections]
  simp

theorem names_sectionBlocks :
    ((m.sectionBlocks [] m.sections).filterMap Block.entry?).map Entry.name =
      (firstMentions m.listedNames).filter (· ∈ m.names) := by
  rw [entries_listed, names_filterMap]

-- ═════════════════════════════════════════════════════════════════════════════
-- The whole page
-- ═════════════════════════════════════════════════════════════════════════════

theorem mem_unlistedNames {m : ModuleDocs} {name : Text} :
    name ∈ m.unlistedNames ↔ name ∈ m.names ∧ name ∉ m.listedNames := by
  simp [unlistedNames, mem_firstMentions, mem_mentions_sections]

theorem names_unlisted :
    (m.unlistedNames.filterMap m.entry?).map Entry.name = m.unlistedNames := by
  rw [names_filterMap, List.filter_eq_self]
  intro name hname
  exact decide_eq_true (mem_unlistedNames.1 hname).1

theorem pairwise_unlistedNames : m.unlistedNames.Pairwise Before :=
  pairwise_before_mergeSort ((nodup_firstMentions m.names).filter _)

theorem names_pageEntries :
    m.pageEntries.map Entry.name =
      (firstMentions m.listedNames).filter (· ∈ m.names) ++ m.unlistedNames := by
  rw [pageEntries, page, List.filterMap_append, List.map_append, names_sectionBlocks,
    filterMap_entry?_map_entry, names_unlisted]

theorem nodup_names_pageEntries : (m.pageEntries.map Entry.name).Nodup := by
  have hunlisted : m.unlistedNames.Nodup :=
    (List.mergeSort_perm _ _).nodup_iff.2 ((nodup_firstMentions m.names).filter _)
  rw [names_pageEntries, List.nodup_append]
  refine ⟨(nodup_firstMentions m.listedNames).filter _, hunlisted, ?_⟩
  rintro name hlisted _ hother rfl
  have hmem := mem_firstMentions.1 (List.mem_filter.1 hlisted).1
  exact (mem_unlistedNames.1 hother).2 hmem

theorem mem_names_pageEntries {m : ModuleDocs} {name : Text} :
    name ∈ m.pageEntries.map Entry.name ↔ name ∈ m.names := by
  rw [names_pageEntries, List.mem_append, List.mem_filter, mem_firstMentions, mem_unlistedNames,
    decide_eq_true_eq]
  by_cases h : name ∈ m.listedNames <;> simp [h]

/-- An entry on the page is the one documented under its name. -/
theorem entry?_of_mem_pageEntries {m : ModuleDocs} {e : Entry} (h : e ∈ m.pageEntries) :
    m.entry? e.name = some e := by
  have hlookup : ∃ name, m.entry? name = some e := by
    rw [pageEntries, page, List.filterMap_append, filterMap_entry?_map_entry, entries_listed,
      List.mem_append, List.mem_filterMap, List.mem_filterMap] at h
    rcases h with ⟨name, -, hname⟩ | ⟨name, -, hname⟩
    · exact ⟨name, hname⟩
    · exact ⟨name, hname⟩
  obtain ⟨name, hname⟩ := hlookup
  rw [(entry?_eq_some_iff.1 hname).1, hname]

/-- With distinct names nothing is lost from the page, and nothing shown twice. -/
theorem perm_pageEntries {m : ModuleDocs} (h : m.names.Nodup) : m.pageEntries.Perm m.entries := by
  have hpage : m.pageEntries.Nodup := List.Nodup.of_map _ m.nodup_names_pageEntries
  have hentries : m.entries.Nodup := List.Nodup.of_map _ h
  rw [List.perm_ext_iff_of_nodup hpage hentries]
  intro e
  constructor
  · intro he
    exact mem_entries_of_entry?_eq_some (entry?_of_mem_pageEntries he)
  · intro he
    have hname : e.name ∈ m.names := List.mem_map_of_mem he
    obtain ⟨shown, hshown, heq⟩ := List.mem_map.1 (mem_names_pageEntries.2 hname)
    have hmem := mem_entries_of_entry?_eq_some (entry?_of_mem_pageEntries hshown)
    rwa [← List.inj_on_of_nodup_map h hmem he heq]

theorem unknownNames_eq :
    m.unknownNames = m.listings.flatMap fun line =>
      (firstMentions (Comment.listedNames line)).filter (· ∉ m.names) := by
  rw [unknownNames, sections, mentions_sections, List.filter_flatMap]
  rfl

/-- **One entry for each name.** The page shows the last entry of each name, and so all
entries if their names are distinct. Listed names come first, in the order of their first
mentions. The other names follow everything that the comment gives, ordered by code point.
The warnings go listing by listing through the names that no entry bears. -/
theorem page_entries :
    ((m.pageEntries.map Entry.name).Nodup ∧
      ∀ name, name ∈ m.pageEntries.map Entry.name ↔ name ∈ m.names) ∧
    (∀ e ∈ m.pageEntries, ∃ before after, m.entries = before ++ e :: after ∧
      ∀ later ∈ after, later.name ≠ e.name) ∧
    (m.names.Nodup → m.pageEntries.Perm m.entries) ∧
    (∃ unlisted : List Entry,
      m.page = m.sectionBlocks [] m.sections ++ unlisted.map .entry ∧
      ((m.sectionBlocks [] m.sections).filterMap Block.entry?).map Entry.name =
        (firstMentions m.listedNames).filter (· ∈ m.names) ∧
      (∀ e ∈ unlisted, e.name ∉ m.listedNames) ∧
      (unlisted.map Entry.name).Pairwise Before) ∧
    m.unknownNames = m.listings.flatMap fun line =>
      (firstMentions (Comment.listedNames line)).filter (· ∉ m.names) := by
  refine ⟨⟨m.nodup_names_pageEntries, fun name => mem_names_pageEntries⟩, ?_, perm_pageEntries,
    ⟨m.unlistedNames.filterMap m.entry?, rfl, m.names_sectionBlocks, ?_, ?_⟩,
    m.unknownNames_eq⟩
  · intro e he
    exact (entry?_eq_some_iff.1 (entry?_of_mem_pageEntries he)).2
  · intro e he
    have hname : e.name ∈ (m.unlistedNames.filterMap m.entry?).map Entry.name :=
      List.mem_map_of_mem he
    rw [names_unlisted] at hname
    exact (mem_unlistedNames.1 hname).2
  · rw [names_unlisted]
    exact m.pairwise_unlistedNames

end ModuleDocs

end PackageDocs
