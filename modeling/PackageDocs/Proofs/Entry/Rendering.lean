import PackageDocs.Entry.Rendered
import PackageDocs.Proofs.Entry.Layouts

/-!
# Rendering under two settings

The entries of a module are rendered under every setting whose indent can be written
out. Two renderings of the module differ in the breaks of their lines alone: entry by
entry they show the same words, links, fixity and comment.

## Main definitions

- `Content`, `RenderedEntry.content`: what an entry says, however it is laid out
- `Settings.HasIndent`: the indent can be written out
- `Settings.frame`: the frame of a width under such an indent
- `Entry.NeedsWidth`: the signature of the entry depends on a width

## Main results

- `Entry.exists_render_iff`, `Entry.render_eq_ok`: when an entry can be laid out, and in which
  frame
- `Entry.eq_rendered_of_render`: what is rendered is laid out in that frame
- `Entry.mapM_render_eq_ok`, `Entry.mapM_render_eq_error`: when entries are rendered
- `ModuleDocs.render_agree`: two renderings of a module say the same
-/

namespace PackageDocs

open Text

/-- What an entry says, however it is laid out: its words stand one space apart, and its
links stand without what is between them. -/
structure Content where
  name : Text
  text : Text
  links : Document
  fixity : Option Text
  comment : Text
  deriving Repr, DecidableEq

/-- What the rendered entry says. -/
def RenderedEntry.content (r : RenderedEntry) : Content where
  name := r.name
  text := squash r.signature.plain
  links := r.signature.links
  fixity := r.fixity
  comment := r.comment

/-- Two layouts of an entry say the same, unless it is a value with a mark in its type. -/
theorem Entry.content_rendered (scope : Scope) (frame₁ frame₂ : Frame) (e : Entry)
    (hmark : ∀ v, e = .value v → Scan.arrowMark ∉ v.type) :
    (e.rendered scope frame₁).content = (e.rendered scope frame₂).content := by
  have h := e.document_agree scope frame₁ frame₂ hmark
  simp only [RenderedEntry.content, Entry.rendered, h.text, h.links]

/-- The indent can be written out: it is a machine integer, and memory has room for it. -/
def Settings.HasIndent (settings : Settings) : Prop :=
  -Frame.machineBound ≤ settings.indent ∧ settings.indent < Frame.machineBound ∧
    ∀ room ∈ settings.room, settings.indent ≤ room

instance : DecidablePred Settings.HasIndent := fun settings =>
  inferInstanceAs (Decidable (-Frame.machineBound ≤ settings.indent ∧ _ ∧ _))

variable {settings : Settings}

theorem Settings.HasIndent.spaces_eq (h : settings.HasIndent) :
    Frame.spaces settings.room settings.indent = .ok settings.indent.toNat := by
  obtain ⟨hlow, hhigh, hroom⟩ := h
  have hfits : settings.room.any (· < settings.indent.toNat) = false := by
    cases hlimit : settings.room with
    | none => rfl
    | some room =>
      have hle := hroom room hlimit
      simp only [Option.any_some, decide_eq_false_iff_not]
      omega
  rw [Frame.spaces, if_neg (by omega), hfits]
  rfl

theorem Settings.exists_spaces_eq_error (h : ¬ settings.HasIndent) :
    ∃ fault, Frame.spaces settings.room settings.indent = .error fault := by
  rw [Frame.spaces]
  split
  · exact ⟨_, rfl⟩
  · next hmachine =>
    split
    · exact ⟨_, rfl⟩
    · next hroom =>
      refine absurd ⟨by omega, by omega, ?_⟩ h
      intro room hlimit
      rw [Option.mem_def.1 hlimit, Option.any_some, decide_eq_true_iff] at hroom
      omega

/-- A width, given or not, makes a frame of every indent that can be written out. -/
theorem Settings.frameFor_ofOption (settings : Settings) (width : Option Int) (e : Entry) :
    settings.frameFor (.ofOption width) e =
      (Frame.spaces settings.room settings.indent).map fun indent =>
        { width := width.getD settings.width, indent } := by
  rw [frameFor]
  cases Frame.spaces settings.room settings.indent with
  | error fault => rfl
  | ok indent => cases width <;> cases e <;> rfl

-- ═════════════════════════════════════════════════════════════════════════════
-- Layouts that exist
-- ═════════════════════════════════════════════════════════════════════════════

/-- Only the signature of a value depends on a width. -/
def Entry.NeedsWidth : Entry → Prop
  | .value _ => True
  | _ => False

/-- An entry can be laid out if the indent can be written out and a width is there where
it is needed. -/
theorem Entry.exists_render_iff {scope : Scope} {width : Width} {e : Entry} :
    (∃ rendered, e.render settings width scope = .ok rendered) ↔
      settings.HasIndent ∧ (width = .missing → ¬ e.NeedsWidth) := by
  by_cases hindent : settings.HasIndent
  · rw [Entry.render, Settings.frameFor, hindent.spaces_eq]
    cases width <;> cases e <;>
      simp [hindent, Entry.NeedsWidth, bind, Except.bind, pure, Except.pure]
  · obtain ⟨fault, hfault⟩ := Settings.exists_spaces_eq_error hindent
    rw [Entry.render, Settings.frameFor, hfault]
    simp [hindent, bind, Except.bind]

/-- The frame of a width that is asked for, under an indent that can be written out. -/
def Settings.frame (settings : Settings) (width : Option Int) : Frame :=
  { width := width.getD settings.width, indent := settings.indent.toNat }

theorem Entry.render_eq_ok {scope : Scope} (h : settings.HasIndent) (width : Option Int)
    (e : Entry) :
    e.render settings (.ofOption width) scope = .ok (e.rendered scope (settings.frame width)) := by
  rw [Entry.render, Settings.frameFor_ofOption, h.spaces_eq]
  rfl

/-- A width that may be left to the settings is there for every entry. -/
theorem Entry.exists_render_ofOption_iff {scope : Scope} {width : Option Int} {e : Entry} :
    (∃ rendered, e.render settings (.ofOption width) scope = .ok rendered) ↔
      settings.HasIndent := by
  have hgiven : Width.ofOption width ≠ .missing := by
    cases width <;> simp [Width.ofOption]
  rw [Entry.exists_render_iff]
  exact and_iff_left fun hmissing => absurd hmissing hgiven

theorem Entry.eq_rendered_of_render {scope : Scope} {width : Option Int} {e : Entry}
    {rendered : RenderedEntry} (h : e.render settings (.ofOption width) scope = .ok rendered) :
    rendered = e.rendered scope (settings.frame width) := by
  rw [Entry.render_eq_ok (Entry.exists_render_ofOption_iff.1 ⟨rendered, h⟩)] at h
  exact (Except.ok.inj h).symm

-- ═════════════════════════════════════════════════════════════════════════════
-- Lists of entries
-- ═════════════════════════════════════════════════════════════════════════════

/-- All entries are laid out in one frame. -/
theorem Entry.mapM_render_eq_ok (h : settings.HasIndent) (scope : Scope) (width : Option Int)
    (es : List Entry) :
    es.mapM (Entry.render settings (.ofOption width) scope) =
      .ok (es.map (Entry.rendered scope
        { width := width.getD settings.width, indent := settings.indent.toNat })) := by
  induction es with
  | nil => rfl
  | cons e es ih =>
    rw [List.mapM_cons, ih, Entry.render, Settings.frameFor_ofOption, h.spaces_eq]
    rfl

/-- Without an indent nothing is laid out. -/
theorem Entry.mapM_render_eq_error (h : ¬ settings.HasIndent) (scope : Scope) (width : Option Int)
    {es : List Entry} (hne : es ≠ []) :
    ∃ fault, es.mapM (Entry.render settings (.ofOption width) scope) = .error fault := by
  obtain ⟨e, later, rfl⟩ := List.exists_cons_of_ne_nil hne
  obtain ⟨fault, hfault⟩ := Settings.exists_spaces_eq_error h
  refine ⟨fault, ?_⟩
  rw [List.mapM_cons, Entry.render, Settings.frameFor_ofOption, hfault]
  rfl

theorem Entry.exists_mapM_render_eq_ok_iff (scope : Scope) (settings : Settings)
    (width : Option Int) (es : List Entry) :
    (∃ rendered, es.mapM (Entry.render settings (.ofOption width) scope) = .ok rendered) ↔
      es = [] ∨ settings.HasIndent := by
  constructor
  · rintro ⟨rendered, hrender⟩
    by_cases hne : es = []
    · exact Or.inl hne
    · by_cases hindent : settings.HasIndent
      · exact Or.inr hindent
      · obtain ⟨fault, hfault⟩ := Entry.mapM_render_eq_error hindent scope width hne
        rw [hfault] at hrender
        exact absurd hrender (by simp)
  · rintro (rfl | hindent)
    · exact ⟨[], rfl⟩
    · exact ⟨_, Entry.mapM_render_eq_ok hindent scope width es⟩

theorem Entry.exists_frame_of_mapM_render_eq_ok {scope : Scope} {width : Option Int}
    {es : List Entry} {rendered : List RenderedEntry}
    (h : es.mapM (Entry.render settings (.ofOption width) scope) = .ok rendered) :
    ∃ frame, rendered = es.map (Entry.rendered scope frame) := by
  rcases (Entry.exists_mapM_render_eq_ok_iff scope settings width es).1 ⟨rendered, h⟩ with
    rfl | hindent
  · exact ⟨{ width := 0, indent := 0 }, (Except.ok.inj h).symm⟩
  · rw [Entry.mapM_render_eq_ok hindent] at h
    exact ⟨_, (Except.ok.inj h).symm⟩

namespace ModuleDocs

theorem render_eq_ok (m : ModuleDocs) (h : settings.HasIndent) (width : Option Int) :
    m.render settings (.ofOption width) =
      .ok (m.entries.map (Entry.rendered m.scope
        { width := width.getD settings.width, indent := settings.indent.toNat })) :=
  Entry.mapM_render_eq_ok h m.scope width m.entries

theorem render_eq_error (m : ModuleDocs) (hentries : m.entries ≠ []) (h : ¬ settings.HasIndent)
    (width : Option Int) : ∃ fault, m.render settings (.ofOption width) = .error fault :=
  Entry.mapM_render_eq_error h m.scope width hentries

theorem exists_render_eq_ok_iff (m : ModuleDocs) (settings : Settings) (width : Option Int) :
    (∃ entries, m.render settings (.ofOption width) = .ok entries) ↔
      m.entries = [] ∨ settings.HasIndent :=
  Entry.exists_mapM_render_eq_ok_iff m.scope settings width m.entries

theorem exists_frame_of_render_eq_ok {m : ModuleDocs} {width : Option Int}
    {entries : List RenderedEntry} (h : m.render settings (.ofOption width) = .ok entries) :
    ∃ frame, entries = m.entries.map (Entry.rendered m.scope frame) :=
  Entry.exists_frame_of_mapM_render_eq_ok h

theorem value_mem_entries {m : ModuleDocs} {v : Value} : .value v ∈ m.entries ↔ v ∈ m.values := by
  simp [entries]

/-- **Layouts say the same.** A module with entries is rendered under exactly those
settings whose indent can be written out, in every width. If no type of its values holds
a null character, then any two renderings list the same names, fixities and comments, the
same texts up to breaks, and the same links. -/
theorem render_agree (m : ModuleDocs) (htypes : ∀ v ∈ m.values, '\x00' ∉ v.type) :
    (∀ (settings : Settings) (width : Option Int),
      (∃ entries, m.render settings (.ofOption width) = .ok entries) ↔
        m.entries = [] ∨ settings.HasIndent) ∧
    ∀ (settings₁ settings₂ : Settings) (width₁ width₂ : Option Int)
      (entries₁ entries₂ : List RenderedEntry),
      m.render settings₁ (.ofOption width₁) = .ok entries₁ →
      m.render settings₂ (.ofOption width₂) = .ok entries₂ →
      entries₁.map RenderedEntry.content = entries₂.map RenderedEntry.content := by
  refine ⟨m.exists_render_eq_ok_iff, ?_⟩
  intro settings₁ settings₂ width₁ width₂ entries₁ entries₂ h₁ h₂
  obtain ⟨frame₁, rfl⟩ := exists_frame_of_render_eq_ok h₁
  obtain ⟨frame₂, rfl⟩ := exists_frame_of_render_eq_ok h₂
  rw [List.map_map, List.map_map]
  apply List.map_congr_left
  intro e he
  refine e.content_rendered m.scope frame₁ frame₂ ?_
  rintro v rfl
  exact htypes v (value_mem_entries.1 he)

/-- A function inline and the same function stacked, its qualified type linked. -/
theorem render_agree_inline_stacked :
    let m : ModuleDocs :=
      { name := "M".toList
        aliases := [{ name := "T".toList, type := "Int".toList }]
        values := [{ name := "f".toList, type := "(a -> M.T) -> N.T".toList }] }
    (∀ v ∈ m.values, '\x00' ∉ v.type) ∧
      ∃ stacked inline, m.render { indent := 2 } (.ofOption (some 0)) = .ok stacked ∧
        m.render {} (.ofOption none) = .ok inline ∧
        stacked.map RenderedEntry.content = inline.map RenderedEntry.content := by
  intro m
  have htypes : ∀ v ∈ m.values, '\x00' ∉ v.type := by decide
  obtain ⟨hrender, hagree⟩ := m.render_agree htypes
  obtain ⟨stacked, hstacked⟩ := (hrender { indent := 2 } (some 0)).2 (Or.inr (by decide))
  obtain ⟨inline, hinline⟩ := (hrender {} none).2 (Or.inr (by decide))
  exact ⟨htypes, stacked, inline, hstacked, hinline, hagree _ _ _ _ _ _ hstacked hinline⟩

/-- An indent beyond every machine integer leaves nothing to compare. -/
theorem not_render_agree_of_indent :
    ¬ ∀ m : ModuleDocs, (∀ v ∈ m.values, '\x00' ∉ v.type) →
      ∀ (settings₁ settings₂ : Settings) (width₁ width₂ : Option Int),
        ∃ entries₁ entries₂, m.render settings₁ (.ofOption width₁) = .ok entries₁ ∧
          m.render settings₂ (.ofOption width₂) = .ok entries₂ ∧
          entries₁.map RenderedEntry.content = entries₂.map RenderedEntry.content := by
  intro h
  let m : ModuleDocs :=
    { name := "M".toList, values := [{ name := "f".toList, type := "a".toList }] }
  obtain ⟨entries, _, hrender, -⟩ :=
    h m (by decide) { indent := 9223372036854775808 } {} (some 80) (some 80)
  have hindent : ¬ Settings.HasIndent { indent := 9223372036854775808 } := by decide
  obtain ⟨fault, hfault⟩ := m.render_eq_error (by decide) hindent (some 80)
  rw [hfault] at hrender
  exact absurd hrender (by simp)

end ModuleDocs

end PackageDocs
