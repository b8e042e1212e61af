import PackageDocs.Proofs.Entry.Anchors
import PackageDocs.Proofs.Entry.Rendering
import PackageDocs.Proofs.Page.Entries

/-!
# Links of a page

Every link of a page leads to an anchor on the same page. The links of a signature name
types of the module, and under the name of a type the page shows an entry, though not
always that type: a value may bear the same name.

## Main results

- `ModuleDocs.exists_anchor_of_mem_names`: every name of the module is an anchor of its page
- `ModuleDocs.links_lead_to_anchors`: the links and the anchors of signatures, and where links lead
-/

namespace PackageDocs

variable {scope : Scope} {frame : Frame} {e : Entry} {token : Token}

/-- A link that is no anchor shows the documented name that it leads to. -/
theorem Entry.reference_of_mem_document (h : token ∈ e.document scope frame)
    (hlink : token.role = .link) (hbold : token.bold = false) :
    token.text ∈ scope.names ∧ token.target = some ('#' :: token.text) := by
  rcases Entry.eq_anchor_or_isRunning h with ⟨-, rfl⟩ | hrunning
  · exact absurd hbold (by simp [Token.anchor])
  · obtain ⟨name, hmem, -, rfl⟩ := hrunning.eq_reference (Or.inl hlink)
    exact ⟨hmem, rfl⟩

/-- What a token of a signature leads to is the entry itself or a documented name. -/
theorem Entry.exists_name_of_target (h : token ∈ e.document scope frame) {target : Text}
    (htarget : token.target = some target) :
    ∃ name, name ≠ [] ∧ target = Name.anchor name ∧ (name = e.name ∨ name ∈ scope.names) := by
  rcases Entry.eq_anchor_or_isRunning h with ⟨hname, rfl⟩ | hrunning
  · exact ⟨e.name, hname, (Option.some.inj htarget).symm, Or.inl rfl⟩
  · obtain ⟨name, hmem, hne, rfl⟩ := hrunning.eq_reference (Or.inr ⟨target, htarget⟩)
    exact ⟨name, hne, (Option.some.inj htarget).symm, Or.inr hmem⟩

namespace ModuleDocs

variable {m : ModuleDocs}

theorem typeNames_subset_names (m : ModuleDocs) : m.typeNames ⊆ m.names := by
  intro name hname
  rw [names, entries, List.map_append, List.map_append, List.map_map, List.map_map]
  exact List.mem_append_left _ hname

theorem pageEntries_eq_nil_iff : m.pageEntries = [] ↔ m.entries = [] := by
  have hnames : m.pageEntries.map Entry.name = [] ↔ m.names = [] := by
    rw [List.eq_nil_iff_forall_not_mem, List.eq_nil_iff_forall_not_mem]
    exact forall_congr' fun name => not_congr mem_names_pageEntries
  rwa [names, List.map_eq_nil_iff, List.map_eq_nil_iff] at hnames

/-- The page shows an entry under every name of the module, with an anchor if the name is
not empty. -/
theorem exists_anchor_of_mem_names {name : Text} (hname : name ∈ m.names) (hne : name ≠ [])
    (scope : Scope) (frame : Frame) :
    ∃ e ∈ m.pageEntries, .anchor name ∈ e.document scope frame := by
  obtain ⟨e, he, rfl⟩ := List.mem_map.1 (mem_names_pageEntries.2 hname)
  refine ⟨e, he, ?_⟩
  have hanchor : .anchor e.name ∈ (e.document scope frame).filter Token.bold := by
    rw [e.filter_bold_document]
    exact mem_anchorDocument.2 ⟨hne, rfl⟩
  exact (List.mem_filter.1 hanchor).1

/-- **No link dangles.** In every width and under every indent that can be written out, the
entries of a module are laid out such that their links name types of the module, and the
only bold token of a signature is the anchor of its entry, unless the name is empty. On
the page, whichever of the entries of one name it shows, every target is an anchor. -/
theorem links_lead_to_anchors (m : ModuleDocs) (settings : Settings) (width : Option Int) :
    ((∃ entries, m.render settings (.ofOption width) = .ok entries) ↔
      m.entries = [] ∨ settings.HasIndent) ∧
    (∀ entries, m.render settings (.ofOption width) = .ok entries → ∀ r ∈ entries,
      (∀ token ∈ r.signature, token.role = .link → token.bold = false →
        token.text ∈ m.typeNames ∧ token.target = some ('#' :: token.text)) ∧
      r.signature.filter Token.bold =
        if r.name = [] then []
        else [{
          text := Name.display r.name
          role := .link
          target := some ('#' :: r.name)
          bold := true }]) ∧
    ((∃ shown, m.pageEntries.mapM (Entry.render settings (.ofOption width) m.scope) = .ok shown) ↔
      m.entries = [] ∨ settings.HasIndent) ∧
    ∀ shown, m.pageEntries.mapM (Entry.render settings (.ofOption width) m.scope) = .ok shown →
      ∀ r ∈ shown, ∀ token ∈ r.signature, ∀ target, token.target = some target →
        ∃ other ∈ shown, ∃ anchor ∈ other.signature,
          anchor.role = .link ∧ anchor.bold = true ∧ anchor.target = some target := by
  refine ⟨m.exists_render_eq_ok_iff settings width, ?_, ?_, ?_⟩
  · intro entries hrender r hr
    obtain ⟨frame, rfl⟩ := exists_frame_of_render_eq_ok hrender
    obtain ⟨e, -, rfl⟩ := List.mem_map.1 hr
    refine ⟨fun token => Entry.reference_of_mem_document, ?_⟩
    show (e.document m.scope frame).filter Token.bold = if e.name = [] then [] else _
    rw [e.filter_bold_document]
    unfold anchorDocument
    simp only [List.isEmpty_iff]
    rfl
  · rw [Entry.exists_mapM_render_eq_ok_iff, pageEntries_eq_nil_iff]
  · intro shown hrender r hr token htoken target htarget
    obtain ⟨frame, rfl⟩ := Entry.exists_frame_of_mapM_render_eq_ok hrender
    obtain ⟨e, he, rfl⟩ := List.mem_map.1 hr
    obtain ⟨name, hne, rfl, hname⟩ := Entry.exists_name_of_target htoken htarget
    have hmem : name ∈ m.names := by
      rcases hname with rfl | hname
      · exact mem_names_pageEntries.1 (List.mem_map_of_mem he)
      · exact m.typeNames_subset_names hname
    obtain ⟨other, hother, hanchor⟩ := exists_anchor_of_mem_names hmem hne m.scope frame
    exact ⟨_, List.mem_map_of_mem hother, _, hanchor, rfl, rfl, rfl⟩

/-- A value that bears the name of an alias takes its place, and what refers to the alias
leads to the value. -/
example :
    let m : ModuleDocs :=
      { name := "M".toList
        aliases := [{ name := "T".toList, type := "Int".toList }]
        values := [{ name := "T".toList, type := "M.T".toList }] }
    m.pageEntries.mapM (Entry.render {} .usual m.scope) =
      .ok [{
        name := "T".toList
        signature := [.anchor "T".toList, .keyword " : ".toList, .reference "T".toList]
        fixity := none
        comment := [] }] := by
  decide +kernel

end ModuleDocs

end PackageDocs
