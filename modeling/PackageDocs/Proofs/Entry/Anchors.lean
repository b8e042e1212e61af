import PackageDocs.Entry.Layout
import PackageDocs.Proofs.Signature.References

/-!
# Anchors of signatures

A signature is the anchor of its entry with running text on both sides. Running text is
plain text, keywords and references to documented names; all that is bold or leads
elsewhere is the anchor.

## Main definitions

- `Token.IsRunning`, `Document.IsRunning`: tokens of running text, and documents of them

## Main results

- `Scope.isRunning_typeDocument`: types are running text
- `Entry.exists_document_eq`: the anchor of a signature and the running text around it
- `Entry.filter_bold_document`, `Entry.eq_anchor_or_isRunning`: what is bold in a
  signature, and what else there is
-/

namespace PackageDocs

/-- A token of running text: text that leads nowhere, or a reference to one of the
names. -/
inductive Token.IsRunning (names : List Text) : Token → Prop
  | plain (text : Text) : IsRunning names (.plain text)
  | keyword (text : Text) : IsRunning names (.keyword text)
  | reference {name : Text} (hmem : name ∈ names) (hne : name ≠ []) :
      IsRunning names (.reference name)

namespace Token.IsRunning

variable {names : List Text} {token : Token}

theorem bold_eq_false (h : token.IsRunning names) : token.bold = false := by
  cases h <;> rfl

/-- Only references lead anywhere, and they are the links. -/
theorem eq_reference (h : token.IsRunning names)
    (hlink : token.role = .link ∨ ∃ target, token.target = some target) :
    ∃ name ∈ names, name ≠ [] ∧ token = .reference name := by
  cases h with
  | plain text => simp [Token.plain] at hlink
  | keyword text => simp [Token.keyword] at hlink
  | @reference name hmem hne => exact ⟨name, hmem, hne, rfl⟩

end Token.IsRunning

namespace Document

/-- Every token is one of running text. -/
def IsRunning (names : List Text) (d : Document) : Prop :=
  ∀ token ∈ d, token.IsRunning names

variable {names : List Text} {d e : Document} {token : Token}

theorem isRunning_nil : IsRunning names [] :=
  List.forall_mem_nil _

theorem IsRunning.cons (htoken : token.IsRunning names) (h : IsRunning names d) :
    IsRunning names (token :: d) :=
  List.forall_mem_cons.2 ⟨htoken, h⟩

theorem IsRunning.append (hd : IsRunning names d) (he : IsRunning names e) :
    IsRunning names (d ++ e) :=
  List.forall_mem_append.2 ⟨hd, he⟩

theorem isRunning_flatMap {α : Type} {f : α → Document} {xs : List α}
    (h : ∀ x, IsRunning names (f x)) : IsRunning names (xs.flatMap f) := by
  intro token htoken
  obtain ⟨x, -, hx⟩ := List.mem_flatMap.1 htoken
  exact h x token hx

theorem IsRunning.consPlain (c : Char) (h : IsRunning names d) :
    IsRunning names (consPlain c d) := by
  rcases consPlain_cases c d with ⟨text, rest, rfl, hcons⟩ | hcons
  · rw [hcons]
    exact .cons (.plain _) (List.forall_mem_cons.1 h).2
  · rw [hcons]
    exact .cons (.plain _) h

/-- Glyphs with documented names are running text. -/
theorem isRunning_ofGlyphs {gs : List Glyph}
    (h : ∀ name, Glyph.name name ∈ gs → name ∈ names ∧ name ≠ []) :
    IsRunning names (ofGlyphs gs) := by
  induction gs using ofGlyphs.induct with
  | case1 rest ih => exact .cons (.keyword _) (ih fun name hname => h name (by simp [hname]))
  | case2 rest ih => exact .cons (.keyword _) (ih fun name hname => h name (by simp [hname]))
  | case3 c rest hnotArrow hnotColon ih =>
    rw [ofGlyphs]
    · exact (ih fun name hname => h name (List.mem_cons_of_mem _ hname)).consPlain c
    · exact hnotArrow
    · exact hnotColon
  | case4 text rest ih =>
    obtain ⟨hmem, hne⟩ := h text List.mem_cons_self
    exact .cons (.reference hmem hne) (ih fun name hname => h name (by simp [hname]))
  | case5 => exact isRunning_nil

end Document

open Document

/-- A type is running text: its words refer to documented names only. -/
theorem Scope.isRunning_typeDocument (scope : Scope) (type : Text) :
    IsRunning scope.names (scope.typeDocument type) := by
  rw [Scope.typeDocument_eq_ofGlyphs]
  apply isRunning_ofGlyphs
  intro name hname
  obtain ⟨word, -, hrefers⟩ := refers_of_name_mem_glyphs hname
  exact ⟨hrefers.documented, hrefers.leads.identifier.ne_nil⟩

variable (scope : Scope) (frame : Frame)

theorem Frame.isRunning_newline {names : List Text} : (newline frame).IsRunning names :=
  .plain _

theorem isRunning_typeParameters {names : List Text} (args : List Text) :
    IsRunning names (if args.isEmpty then [] else [.plain (' ' :: [' '].intercalate args)]) := by
  split
  · exact isRunning_nil
  · exact isRunning_nil.cons (.plain _)

theorem Value.isRunning_argumentLine (marker gap type : Text) :
    IsRunning scope.names (argumentLine scope frame marker gap type) :=
  .cons frame.isRunning_newline
    (.cons (.keyword marker) (.cons (.plain gap) (scope.isRunning_typeDocument type)))

theorem Value.isRunning_argumentLines (types : List Text) :
    IsRunning scope.names (argumentLines scope frame types) := by
  cases types with
  | nil => exact isRunning_nil
  | cons first rest =>
    exact (isRunning_argumentLine scope frame _ _ first).append
      (isRunning_flatMap (isRunning_argumentLine scope frame _ _))

theorem Variant.isRunning_document (marker : Text) (v : Variant) :
    IsRunning scope.names (v.document scope frame marker) := by
  have hargs : IsRunning scope.names (v.args.flatMap fun arg =>
      .plain [' '] :: scope.typeDocument (groupArgument (Text.squash arg))) :=
    isRunning_flatMap fun arg => .cons (.plain _) (scope.isRunning_typeDocument _)
  exact .cons frame.isRunning_newline (.cons (.keyword marker) (.cons (.plain _) hargs))

theorem isRunning_variantLines (variants : List Variant) :
    IsRunning scope.names (variantLines scope frame variants) := by
  cases variants with
  | nil => exact isRunning_nil
  | cons first rest =>
    exact (first.isRunning_document scope frame _).append
      (isRunning_flatMap (Variant.isRunning_document scope frame _))

/-- Running text stands before and after the anchor of a type's head, whatever running
text follows the head. -/
theorem exists_typeHead_append_eq {names : List Text} (keyword name : Text) (args : List Text)
    {later : Document} (h : IsRunning names later) :
    ∃ before after, typeHead keyword name args ++ later = before ++ (anchorDocument name ++ after) ∧
      IsRunning names before ∧ IsRunning names after := by
  refine ⟨[.keyword keyword], _ ++ later, ?_, isRunning_nil.cons (.keyword _),
    (isRunning_typeParameters args).append h⟩
  simp [typeHead]

/-- A signature is the anchor of its entry with running text on both sides. -/
theorem Entry.exists_document_eq (e : Entry) :
    ∃ before after, e.document scope frame = before ++ (anchorDocument e.name ++ after) ∧
      IsRunning scope.names before ∧ IsRunning scope.names after := by
  cases e with
  | «alias» entry =>
    show ∃ before after, entry.document scope frame = _ ∧ _
    rw [TypeAlias.document, List.append_assoc]
    apply exists_typeHead_append_eq
    refine .cons (.plain _) (.cons (.keyword _) ?_)
    split
    · exact isRunning_flatMap fun field =>
        .cons frame.isRunning_newline (scope.isRunning_typeDocument field)
    · exact .cons (.plain _) (scope.isRunning_typeDocument _)
  | custom entry =>
    exact exists_typeHead_append_eq _ _ _ (isRunning_variantLines scope frame entry.variants)
  | value entry =>
    refine ⟨[], _, rfl, isRunning_nil, ?_⟩
    split
    · exact .cons (.keyword _) (scope.isRunning_typeDocument _)
    · exact Value.isRunning_argumentLines scope frame _

variable {scope frame} {e : Entry} {token : Token}

theorem mem_anchorDocument {name : Text} :
    token ∈ anchorDocument name ↔ name ≠ [] ∧ token = .anchor name := by
  by_cases hname : name = [] <;> simp [anchorDocument, hname]

/-- A token of a signature is the anchor of the entry, or one of running text. -/
theorem Entry.eq_anchor_or_isRunning (h : token ∈ e.document scope frame) :
    (e.name ≠ [] ∧ token = .anchor e.name) ∨ token.IsRunning scope.names := by
  obtain ⟨before, after, hdocument, hbefore, hafter⟩ := e.exists_document_eq scope frame
  rw [hdocument, List.mem_append, List.mem_append] at h
  rcases h with h | h | h
  · exact Or.inr (hbefore token h)
  · exact Or.inl (mem_anchorDocument.1 h)
  · exact Or.inr (hafter token h)

theorem Document.IsRunning.filter_bold {names : List Text} {d : Document} (h : IsRunning names d) :
    d.filter Token.bold = [] := by
  rw [List.filter_eq_nil_iff]
  intro token htoken
  rw [(h token htoken).bold_eq_false]
  exact Bool.false_ne_true

/-- The anchor is what is bold in a signature. -/
theorem Entry.filter_bold_document (scope : Scope) (frame : Frame) (e : Entry) :
    (e.document scope frame).filter Token.bold = anchorDocument e.name := by
  obtain ⟨before, after, hdocument, hbefore, hafter⟩ := e.exists_document_eq scope frame
  have hanchor : (anchorDocument e.name).filter Token.bold = anchorDocument e.name := by
    unfold anchorDocument
    split <;> rfl
  rw [hdocument, List.filter_append, List.filter_append, hbefore.filter_bold, hafter.filter_bold,
    hanchor, List.nil_append, List.append_nil]

end PackageDocs
