import PackageDocs.Name
import PackageDocs.Proofs.Page.Entries
import PackageDocs.Proofs.Text.Trim

/-!
# Listings read back

The names on a listing are read as they are shown: operators stand in parentheses, and
one pair of parentheses is taken off. A comment that lists all entries of a module under
their shown names therefore fixes the order of the page.

## Main definitions

- `Name.IsListable`: a name that can stand on a listing
- `Text.IsSingleLine`: a text without line breaks
- `Comment.listing`: the listing of some names, as they are shown

## Main results

- `Comment.unwrapName_display`: a shown name is read as the name
- `Comment.listedNames_listing`: the names on a listing
- `ModuleDocs.listing_reads_back`: listings, and pages that a listing orders
-/

namespace PackageDocs

open Text

/-- A name that can stand on a listing: there are no blanks around it, and no comma ends it
early. -/
structure Name.IsListable (name : Text) : Prop where
  ne_nil : name ≠ []
  trimmed : IsTrimmed name
  comma : ',' ∉ name

namespace Text

/-- No character of the text ends a line. -/
def IsSingleLine (t : Text) : Prop :=
  ∀ c ∈ t, isLineBreak c = false

instance : DecidablePred IsSingleLine := fun t => List.decidableBAll _ t

theorem lines_eq_singleton {t : Text} (hne : t ≠ []) (h : IsSingleLine t) : lines t = [t] := by
  induction t with
  | nil => exact absurd rfl hne
  | cons c t ih =>
    obtain ⟨hc, ht⟩ := List.forall_mem_cons.1 h
    unfold lines
    split
    · next heq => exact absurd heq (by simp)
    · next rest heq =>
      -- The pair of breaks starts with one.
      rw [(List.cons.inj heq).1] at hc
      exact absurd hc (by decide)
    · next d rest _ heq =>
      obtain ⟨rfl, rfl⟩ := List.cons.inj heq
      rw [hc, if_neg Bool.false_ne_true]
      cases t with
      | nil => rfl
      | cons e t => rw [ih (by simp) ht]

end Text

namespace Comment

/-- The listing of the names, as they are shown. -/
def listing (names : List Text) : Text :=
  listingMark ++ [' '] ++ [',', ' '].intercalate (names.map Name.display)

-- ═════════════════════════════════════════════════════════════════════════════
-- One name
-- ═════════════════════════════════════════════════════════════════════════════

/-- A name that is no operator does not start with a parenthesis. -/
theorem head?_ne_of_not_isOperator {name : Text} (h : Name.isOperator name = false) :
    name.head? ≠ some '(' := by
  intro hhead
  obtain ⟨rest, rfl⟩ := List.head?_eq_some_iff.1 hhead
  have hoperator : Name.isOperator ('(' :: rest) = true := by
    have hparen : isAlphanumeric '(' = false := by decide +kernel
    simp [Name.isOperator, hparen]
  rw [hoperator] at h
  exact absurd h (by simp)

/-- A shown name is read as the name, whatever brackets the name itself is made of. -/
theorem unwrapName_display {name : Text} (hne : name ≠ []) :
    unwrapName (Name.display name) = name := by
  cases hoperator : Name.isOperator name with
  | false =>
    have hdisplay : Name.display name = name := by simp [Name.display, hoperator]
    rw [hdisplay, unwrapName, if_neg fun h => head?_ne_of_not_isOperator hoperator h.1]
  | true =>
    have hdisplay : Name.display name = '(' :: name ++ [')'] := by simp [Name.display, hoperator]
    have hlength : 2 < ('(' :: name ++ [')']).length := by
      have hpos := List.length_pos_iff.2 hne
      simpa using hpos
    have hlast : ('(' :: name ++ [')']).getLast? = some ')' := List.getLast?_concat
    rw [hdisplay, unwrapName, if_pos ⟨rfl, hlast, hlength⟩]
    simp

theorem isTrimmed_display {name : Text} (h : IsTrimmed name) : IsTrimmed (Name.display name) := by
  have hparens : IsTrimmed (['('] ++ name ++ [')']) :=
    IsTrimmed.append (by decide) (by decide) (by simp) (by simp) name
  unfold Name.display
  split
  · exact hparens
  · exact h

theorem display_ne_nil {name : Text} (hne : name ≠ []) : Name.display name ≠ [] := by
  unfold Name.display
  split
  · simp
  · exact hne

/-- Showing a name brings in parentheses only. -/
theorem not_mem_display {name : Text} {c : Char} (hc : c ∉ name) (hopen : c ≠ '(')
    (hclose : c ≠ ')') : c ∉ Name.display name := by
  unfold Name.display
  split
  · simp [hc, hopen, hclose]
  · exact hc

-- ═════════════════════════════════════════════════════════════════════════════
-- A whole listing
-- ═════════════════════════════════════════════════════════════════════════════

variable {names : List Text}

/-- Behind the mark every shown name has a space in front of it. -/
theorem listing_eq_append (hne : names ≠ []) :
    listing names =
      listingMark ++ [','].intercalate (names.map fun name => ' ' :: Name.display name) := by
  obtain ⟨first, rest, rfl⟩ := List.exists_cons_of_ne_nil hne
  rw [listing, List.map_cons, List.map_cons, intercalate_cons_eq_append_flatMap,
    intercalate_cons_eq_append_flatMap, List.flatMap_map, List.flatMap_map]
  rfl

theorem isTrimmed_listing (h : ∀ name ∈ names, Name.IsListable name) (hne : names ≠ []) :
    IsTrimmed (listing names) := by
  have hshown : ∀ part ∈ names.map Name.display, part ≠ [] ∧ IsTrimmed part := by
    intro part hpart
    obtain ⟨name, hname, rfl⟩ := List.mem_map.1 hpart
    exact ⟨display_ne_nil (h name hname).ne_nil, isTrimmed_display (h name hname).trimmed⟩
  have hmark : IsTrimmed listingMark := by decide
  have hnames := isTrimmed_intercalate [',', ' '] hshown
  have hnames_ne : [',', ' '].intercalate (names.map Name.display) ≠ [] := by
    obtain ⟨first, rest, rfl⟩ := List.exists_cons_of_ne_nil hne
    rw [List.map_cons, intercalate_cons_eq_append_flatMap]
    exact List.append_ne_nil_of_left_ne_nil (hshown _ List.mem_cons_self).1 _
  exact hmark.append hnames (by decide) hnames_ne [' ']

/-- A listing reads back. -/
theorem listedNames_listing (h : ∀ name ∈ names, Name.IsListable name) :
    listedNames (listing names) = names := by
  by_cases hne : names = []
  · rw [hne]
    decide
  · have hparts : ∀ part ∈ names.map (fun name => ' ' :: Name.display name),
        ∀ c ∈ part, (c == ',') = false := by
      intro part hpart c hc
      obtain ⟨name, hname, rfl⟩ := List.mem_map.1 hpart
      have hcomma : ',' ∉ ' ' :: Name.display name := by
        rw [List.mem_cons, not_or]
        exact ⟨by decide, not_mem_display (h name hname).comma (by decide) (by decide)⟩
      exact beq_false_of_ne fun heq => hcomma (heq ▸ hc)
    have hpieces := @pieces_intercalate (fun c => c == ',') ',' rfl
      (names.map fun name => ' ' :: Name.display name) (by simpa using hne) hparts
    have hread : ∀ name ∈ names, unwrapName (trim (' ' :: Name.display name)) = name := by
      intro name hname
      have htrim := trim_append_append isBlankText_space isBlankText_nil (Name.display name)
      rw [List.append_nil, List.singleton_append] at htrim
      rw [htrim, (isTrimmed_display (h name hname).trimmed).trim_eq,
        unwrapName_display (h name hname).ne_nil]
    have hmap : (names.map fun name => ' ' :: Name.display name).map
        (fun part => unwrapName (trim part)) = names := by
      rw [List.map_map]
      exact (List.map_congr_left hread).trans (List.map_id names)
    rw [listedNames, (isTrimmed_listing h hne).trim_eq, listing_eq_append hne, List.drop_left,
      hpieces, hmap, List.filter_eq_self]
    intro name hname
    simp [(h name hname).ne_nil]

theorem isListing_listing (h : ∀ name ∈ names, Name.IsListable name) :
    isListing (listing names) = true := by
  by_cases hne : names = []
  · rw [hne]
    decide
  · rw [isListing, (isTrimmed_listing h hne).trim_eq, listing_eq_append hne,
      List.isPrefixOf_iff_prefix]
    exact List.prefix_append _ _

/-- Names without line breaks give a listing of one line. -/
theorem lines_listing (h : ∀ name ∈ names, IsSingleLine name) :
    lines (listing names) = [listing names] := by
  have hmark : IsSingleLine (listingMark ++ [' '] ++ [',', ' ']) := by decide
  apply lines_eq_singleton
  · simp [listing]
  · intro c hc
    rcases List.mem_append.1 hc with hc | hc
    · exact hmark c (List.mem_append_left _ hc)
    · rcases mem_or_exists_mem_of_mem_intercalate hc with hc | ⟨part, hpart, hc⟩
      · exact hmark c (List.mem_append_right _ hc)
      · obtain ⟨name, hname, rfl⟩ := List.mem_map.1 hpart
        -- A break in the shown name would be one in the name.
        by_contra hbreak
        refine not_mem_display (fun hmem => hbreak (h name hname c hmem)) ?_ ?_ hc
        · rintro rfl
          exact hbreak (by decide)
        · rintro rfl
          exact hbreak (by decide)

/-- A comment that is one listing of distinct names has one section. -/
theorem sections_listing (h : ∀ name ∈ names, Name.IsListable name) (hnodup : names.Nodup) :
    sections [listing names] = [.listing names] := by
  rw [sections, if_pos (isListing_listing h), listedNames_listing h, firstMentions_of_nodup hnodup]
  rfl

end Comment

open Comment

namespace ModuleDocs

/-- With distinct names every entry is the one documented under its name. -/
theorem entry?_of_mem_entries {m : ModuleDocs} (hnodup : m.names.Nodup) {e : Entry}
    (he : e ∈ m.entries) : m.entry? e.name = some e :=
  entry?_of_mem_pageEntries ((perm_pageEntries hnodup).mem_iff.2 he)

/-- **Listings read back.** The names on a listing are the names that it was made of. So a
module with distinct names whose comment is the listing of its entries, in whatever order,
has them on its page in this order, with nothing else on it and no warning. -/
theorem listing_reads_back :
    (∀ names : List Text, (∀ name ∈ names, Name.IsListable name) →
      Comment.listedNames (listing names) = names) ∧
    ∀ (m : ModuleDocs) (order : List Entry), order.Perm m.entries → m.names.Nodup →
      (∀ name ∈ m.names, Name.IsListable name ∧ IsSingleLine name) →
      m.comment = listing (order.map Entry.name) →
      m.page = order.map .entry ∧ m.unknownNames = [] := by
  refine ⟨fun names => listedNames_listing, ?_⟩
  intro m order horder hnodup hnames hcomment
  have hperm : (order.map Entry.name).Perm m.names := horder.map Entry.name
  have hsections : m.sections = [.listing (order.map Entry.name)] := by
    rw [sections, hcomment,
      lines_listing fun name hname => (hnames name (hperm.mem_iff.1 hname)).2,
      sections_listing (fun name hname => (hnames name (hperm.mem_iff.1 hname)).1)
        (hperm.nodup_iff.2 hnodup)]
  have hmentions : mentions m.sections = order.map Entry.name := by
    rw [hsections]
    exact List.append_nil _
  have hentries : (order.map Entry.name).filterMap m.entry? = order := by
    rw [List.filterMap_map]
    have hfound : ∀ e ∈ order, (m.entry? ∘ Entry.name) e = some e := fun e he =>
      entry?_of_mem_entries hnodup (horder.mem_iff.1 he)
    rw [List.filterMap_congr hfound, List.filterMap_some]
  have hunlisted : m.unlistedNames = [] := by
    rw [List.eq_nil_iff_forall_not_mem]
    intro name hname
    obtain ⟨hmem, hnew⟩ := mem_unlistedNames.1 hname
    rw [← mem_mentions_sections, hmentions, hperm.mem_iff] at hnew
    exact hnew hmem
  constructor
  · rw [page, hunlisted, hsections, sectionBlocks, sectionBlocks]
    simp [hentries]
  · rw [unknownNames, hmentions, List.filter_eq_nil_iff]
    intro name hname
    simpa using hperm.mem_iff.1 hname

/-- Names made of brackets, listed last first. -/
theorem listing_reads_back_of_brackets :
    let m : ModuleDocs :=
      { name := "M".toList
        comment := "@docs (()), map, (()".toList
        values := [
          { name := "(".toList, type := "a -> a".toList },
          { name := "map".toList, type := "a".toList },
          { name := "()".toList, type := "a -> a".toList }] }
    (m.entries.reverse.Perm m.entries ∧ m.names.Nodup ∧
      (∀ name ∈ m.names, Name.IsListable name ∧ IsSingleLine name) ∧
      m.comment = listing (m.entries.reverse.map Entry.name)) ∧
    Comment.listedNames (listing m.names) = m.names ∧
    m.page = m.entries.reverse.map .entry ∧ m.unknownNames = [] := by
  intro m
  have horder : m.entries.reverse.Perm m.entries := List.reverse_perm m.entries
  have hnodup : m.names.Nodup := by decide
  have hnames : ∀ name ∈ m.names, Name.IsListable name ∧ IsSingleLine name := by
    intro name hname
    have hcases : name = "(".toList ∨ name = "map".toList ∨ name = "()".toList := by
      simpa [m, names, entries, Entry.name] using hname
    rcases hcases with rfl | rfl | rfl
    · exact ⟨⟨by decide, by decide, by decide⟩, by decide⟩
    · exact ⟨⟨by decide, by decide, by decide⟩, by decide⟩
    · exact ⟨⟨by decide, by decide, by decide⟩, by decide⟩
  have hcomment : m.comment = listing (m.entries.reverse.map Entry.name) := by decide +kernel
  obtain ⟨hread, hpage⟩ := listing_reads_back
  exact ⟨⟨horder, hnodup, hnames, hcomment⟩, hread m.names fun name hname => (hnames name hname).1,
    hpage m m.entries.reverse horder hnodup hnames hcomment⟩

end ModuleDocs

end PackageDocs
