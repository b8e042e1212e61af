import Mathlib.Data.List.Basic
import PackageDocs.Entry.Layout
import PackageDocs.Proofs.Signature.Balance
import PackageDocs.Proofs.Signature.References

/-!
# Grouped arguments

The arguments of a variant follow each other with spaces between them, so an argument may
have spaces of its own only inside brackets. Parentheses around a balanced text see to
that. A text that starts with a bracket is shown as it is, and nothing says that this
bracket is closed at its end.

## Main definitions

- `Text.CountsAlike`: texts with the same depths behind them and the same outer spaces
- `Text.HasPlainQualifiers`: a type whose qualifiers can be dropped without a bracket
- `Variant.argumentText`: the arguments of a variant as they are shown

## Main results

- `Text.countsAlike_normalizeType`: types without their qualifiers
- `spacesInside_groupArgument_iff`: when a single argument is grouped
- `groupArgument_separates`: when the arguments of a variant can be counted
-/

namespace PackageDocs

open Text

namespace Text

-- ═════════════════════════════════════════════════════════════════════════════
-- Texts with the same brackets
-- ═════════════════════════════════════════════════════════════════════════════

variable {s t : Text}

/-- Two texts count alike if everything around them has the same depths and the same outer
spaces with either. -/
structure CountsAlike (s t : Text) : Prop where
  spaces : ∀ parens braces, outerSpaces parens braces s = outerSpaces parens braces t
  parens : ∀ depth, depthFrom '(' ')' depth s = depthFrom '(' ')' depth t
  braces : ∀ depth, depthFrom '{' '}' depth s = depthFrom '{' '}' depth t

theorem CountsAlike.refl (t : Text) : CountsAlike t t :=
  ⟨fun _ _ => rfl, fun _ => rfl, fun _ => rfl⟩

theorem CountsAlike.append {s' t' : Text} (h : CountsAlike s t) (h' : CountsAlike s' t') :
    CountsAlike (s ++ s') (t ++ t') where
  spaces parens braces := by
    rw [outerSpaces_append, outerSpaces_append, h.spaces, h.parens, h.braces, h'.spaces]
  parens depth := by rw [depthFrom_append, depthFrom_append, h.parens, h'.parens]
  braces depth := by rw [depthFrom_append, depthFrom_append, h.braces, h'.braces]

/-- A text in which nothing counts. -/
theorem countsAlike_nil (h : ∀ c ∈ [' ', '(', ')', '{', '}'], c ∉ t) : CountsAlike [] t where
  spaces parens braces := (outerSpaces_of_not_mem (h ' ' (by simp))).symm
  parens depth := (depthFrom_of_not_mem (h '(' (by simp)) (h ')' (by simp))).symm
  braces depth := (depthFrom_of_not_mem (h '{' (by simp)) (h '}' (by simp))).symm

theorem CountsAlike.intercalate {f : Text → Text} {ws : List Text}
    (h : ∀ w ∈ ws, CountsAlike (f w) w) (sep : Text) :
    CountsAlike (sep.intercalate (ws.map f)) (sep.intercalate ws) := by
  induction ws with
  | nil => exact CountsAlike.refl _
  | cons w ws ih =>
    have hw := h w List.mem_cons_self
    have hws := ih fun v hv => h v (List.mem_cons_of_mem w hv)
    cases ws with
    | nil => rwa [List.map_singleton, List.intercalate_singleton, List.intercalate_singleton]
    | cons v vs =>
      rw [List.map_cons, List.map_cons, List.intercalate_cons_cons, List.intercalate_cons_cons]
      exact (hw.append (CountsAlike.refl sep)).append hws

/-- No word of the type has brackets in its qualifier, so none are dropped with it. -/
def HasPlainQualifiers (type : Text) : Prop :=
  ∀ w ∈ words type, ∀ c ∈ ['(', ')', '{', '}'], c ∉ Word.qualifier w

instance : DecidablePred HasPlainQualifiers := fun type =>
  have (w : Text) : Decidable (∀ c ∈ ['(', ')', '{', '}'], c ∉ Word.qualifier w) :=
    List.decidableBAll _ _
  List.decidableBAll _ (words type)

theorem countsAlike_dropQualifier {w : Text} (hw : IsWord w)
    (h : ∀ c ∈ ['(', ')', '{', '}'], c ∉ Word.qualifier w) :
    CountsAlike (Word.dropQualifier w) w := by
  rcases Word.dropQualifier_cases w with hdrop | ⟨rest, -, -, hbody, hshown⟩
  · rw [hdrop]
    exact CountsAlike.refl w
  · have heq : w = Word.openers w ++ (Word.qualifier w ++ '.' :: rest) := by
      rw [← hbody, Word.openers_append_body]
    have hnothing : CountsAlike [] (Word.qualifier w ++ ['.']) := by
      apply countsAlike_nil
      intro c hc hmem
      rcases List.mem_append.1 hmem with hmem | hmem
      · rcases List.mem_cons.1 hc with rfl | hc
        · have hblank := hw.solid ' ' (by rw [heq]; simp [hmem])
          exact absurd hblank (by decide)
        · exact h c hc hmem
      · rw [List.mem_singleton.1 hmem] at hc
        exact absurd hc (by decide)
    have hall := (CountsAlike.refl (Word.openers w)).append
      (hnothing.append (CountsAlike.refl rest))
    rw [List.nil_append, List.append_assoc, List.singleton_append, ← heq] at hall
    rwa [hshown]

/-- Dropping qualifiers without brackets changes neither depths nor outer spaces. -/
theorem countsAlike_normalizeType {type : Text} (h : HasPlainQualifiers type) :
    CountsAlike (normalizeType type) (squash type) :=
  CountsAlike.intercalate (fun w hw => countsAlike_dropQualifier (isWord_of_mem_words hw) (h w hw))
    [' ']

end Text

-- ═════════════════════════════════════════════════════════════════════════════
-- Arguments of a variant
-- ═════════════════════════════════════════════════════════════════════════════

theorem groupArgument_cases (arg : Text) :
    groupArgument arg = arg ∧ (arg.head? = some '(' ∨ arg.head? = some '{' ∨ ' ' ∉ arg) ∨
      groupArgument arg = '(' :: arg ++ [')'] ∧
        arg.head? ≠ some '(' ∧ arg.head? ≠ some '{' ∧ ' ' ∈ arg := by
  unfold groupArgument
  split
  · next h => exact Or.inl ⟨rfl, h⟩
  · next h => exact Or.inr ⟨rfl, by simpa [not_or] using h⟩

/-- Parentheses around words join the first and the last word. -/
theorem squash_group {ws : List Text} (h : ∀ w ∈ ws, IsWord w) (hne : ws ≠ []) :
    squash ('(' :: [' '].intercalate ws ++ [')']) = '(' :: [' '].intercalate ws ++ [')'] := by
  have hopener : IsWord ['('] := isWord_singleton (by decide)
  have hcloser : IsWord [')'] := isWord_singleton (by decide)
  obtain ⟨first, rest, rfl⟩ := List.exists_cons_of_ne_nil hne
  have hfirst : IsWord ('(' :: first) := hopener.append (h first List.mem_cons_self)
  rcases List.eq_nil_or_concat' rest with rfl | ⟨middle, last, rfl⟩
  · rw [List.intercalate_singleton, squash, (hfirst.append hcloser).words_eq,
      List.intercalate_singleton]
  · have hlast : IsWord (last ++ [')']) := (h last (by simp)).append hcloser
    have hjoined : '(' :: [' '].intercalate (first :: (middle ++ [last])) ++ [')'] =
        [' '].intercalate (('(' :: first) :: (middle ++ [last ++ [')']])) := by
      rw [intercalate_cons_eq_append_flatMap, intercalate_cons_eq_append_flatMap]
      simp
    rw [hjoined, squash, words_intercalate]
    intro w hw
    rcases List.mem_cons.1 hw with rfl | hw
    · exact hfirst
    · rcases List.mem_append.1 hw with hw | hw
      · exact h w (List.mem_cons_of_mem first (List.mem_append_left _ hw))
      · rwa [List.mem_singleton.1 hw]

theorem squash_groupArgument (arg : Text) :
    squash (groupArgument (squash arg)) = groupArgument (squash arg) := by
  rcases groupArgument_cases (squash arg) with ⟨heq, -⟩ | ⟨heq, -, -, hspace⟩
  · rw [heq, squash_eq_squash_iff, words_squash]
  · have hne : words arg ≠ [] := by
      intro hnil
      rw [squash, hnil] at hspace
      exact absurd hspace List.not_mem_nil
    rw [heq]
    exact squash_group (fun w hw => isWord_of_mem_words hw) hne

/-- An argument is grouped unless it starts with a bracket that leaves spaces outside. -/
theorem spacesInside_groupArgument_iff {arg : Text} (h : IsBalanced arg) :
    SpacesInside (groupArgument arg) ↔
      (arg.head? ≠ some '(' ∧ arg.head? ≠ some '{') ∨ SpacesInside arg := by
  rcases groupArgument_cases arg with ⟨heq, hhead⟩ | ⟨heq, hparen, hbrace, -⟩
  · rw [heq]
    constructor
    · exact Or.inr
    · rintro (⟨hparen, hbrace⟩ | hinside)
      · have hspace : ' ' ∉ arg := (hhead.resolve_left hparen).resolve_left hbrace
        exact spacesInside_iff.2 (outerSpaces_of_not_mem hspace)
      · exact hinside
  · rw [heq]
    exact ⟨fun _ => Or.inl ⟨hparen, hbrace⟩, fun _ => h.spacesInside_group⟩

theorem endsAtTop_groupArgument {arg : Text} (h : IsBalanced arg) :
    EndsAtTop (groupArgument arg) := by
  rcases groupArgument_cases arg with ⟨heq, -⟩ | ⟨heq, -⟩
  · rw [heq]
    exact endsAtTop_iff.2 h.atTop
  · rw [heq]
    exact h.endsAtTop_group

namespace Variant

/-- The arguments as they are shown behind the tag. -/
def argumentText (args : List Text) : Text :=
  args.flatMap fun arg => ' ' :: normalizeType (groupArgument (squash arg))

theorem plain_document (scope : Scope) (frame : Frame) (marker : Text) (v : Variant) :
    (v.document scope frame marker).plain =
      frame.newline.text ++ (marker ++ (' ' :: v.tag ++ argumentText v.args)) := by
  have hargs : Document.plain (v.args.flatMap fun arg =>
      .plain [' '] :: scope.typeDocument (groupArgument (squash arg))) = argumentText v.args := by
    rw [Document.plain, List.flatMap_assoc, argumentText]
    refine List.flatMap_congr fun arg _ => ?_
    rw [List.flatMap_cons, ← Document.plain, Scope.plain_typeDocument]
    rfl
  rw [document, Document.plain_append, hargs]
  simp [Document.plain, Token.plain, Token.keyword]

/-- Every argument is led by one outer space. -/
theorem outerSpaces_argumentText_cons {arg : Text} (hbalanced : IsBalanced (squash arg))
    (hplain : HasPlainQualifiers (groupArgument (squash arg))) (args : List Text) :
    outerSpaces 0 0 (argumentText (arg :: args)) =
      outerSpaces 0 0 (groupArgument (squash arg)) + outerSpaces 0 0 (argumentText args) + 1 := by
  have halike := countsAlike_normalizeType hplain
  rw [squash_groupArgument] at halike
  obtain ⟨hparens, hbraces⟩ := endsAtTop_groupArgument hbalanced
  have hspace : outerSpaces 0 0 [' '] = 1 := rfl
  have hparensSpace : depthFrom '(' ')' 0 [' '] = 0 := rfl
  have hbracesSpace : depthFrom '{' '}' 0 [' '] = 0 := rfl
  rw [argumentText, List.flatMap_cons, ← List.singleton_append, List.append_assoc,
    outerSpaces_append, hspace, hparensSpace, hbracesSpace, outerSpaces_append, halike.spaces,
    halike.parens, halike.braces, hparens, hbraces, argumentText, Nat.add_comm]

/-- There are at least as many outer spaces as arguments, and no more if and only if each
argument has its spaces inside. -/
theorem outerSpaces_argumentText {args : List Text}
    (hbalanced : ∀ arg ∈ args, IsBalanced (squash arg))
    (hplain : ∀ arg ∈ args, HasPlainQualifiers (groupArgument (squash arg))) :
    args.length ≤ outerSpaces 0 0 (argumentText args) ∧
      (outerSpaces 0 0 (argumentText args) = args.length ↔
        ∀ arg ∈ args, SpacesInside (groupArgument (squash arg))) := by
  induction args with
  | nil => exact ⟨Nat.zero_le _, by simp [argumentText, outerSpaces]⟩
  | cons arg args ih =>
    obtain ⟨harg, hbalanced⟩ := List.forall_mem_cons.1 hbalanced
    obtain ⟨hnames, hplain⟩ := List.forall_mem_cons.1 hplain
    obtain ⟨hle, heq⟩ := ih hbalanced hplain
    rw [outerSpaces_argumentText_cons harg hnames, List.length_cons, List.forall_mem_cons,
      spacesInside_iff, ← heq]
    omega

end Variant

/-- **Arguments that are grouped.** A balanced argument of a variant has its spaces inside
brackets unless it starts with a bracket and has outer spaces of its own. The arguments stand
behind the tag of the variant, each led by a space. If no qualifier has brackets in it, there
are as many outer spaces as arguments if and only if each argument has its spaces inside. -/
theorem groupArgument_separates (scope : Scope) (frame : Frame) (marker : Text) (v : Variant)
    (hbalanced : ∀ arg ∈ v.args, IsBalanced (squash arg)) :
    (∀ arg ∈ v.args, SpacesInside (groupArgument (squash arg)) ↔
      ((squash arg).head? ≠ some '(' ∧ (squash arg).head? ≠ some '{') ∨
        SpacesInside (squash arg)) ∧
    (v.document scope frame marker).plain =
      frame.newline.text ++ (marker ++ (' ' :: v.tag ++ Variant.argumentText v.args)) ∧
    ((∀ arg ∈ v.args, HasPlainQualifiers (groupArgument (squash arg))) →
      (outerSpaces 0 0 (Variant.argumentText v.args) = v.args.length ↔
        ∀ arg ∈ v.args, SpacesInside (groupArgument (squash arg)))) := by
  exact ⟨fun arg harg => spacesInside_groupArgument_iff (hbalanced arg harg),
    v.plain_document scope frame marker,
    fun hplain => (Variant.outerSpaces_argumentText hbalanced hplain).2⟩

/-- Two arguments, one that needs parentheses and one with brackets of its own. -/
theorem groupArgument_separates_of_pair :
    let v : Variant := { tag := "T".toList, args := ["Maybe  Basics.Int".toList, "(a, b)".toList] }
    (∀ arg ∈ v.args, IsBalanced (squash arg)) ∧
      (∀ arg ∈ v.args, HasPlainQualifiers (groupArgument (squash arg))) ∧
      Variant.argumentText v.args = " (Maybe Int) (a, b)".toList ∧
      (∀ arg ∈ v.args, SpacesInside (groupArgument (squash arg))) ∧
      outerSpaces 0 0 (Variant.argumentText v.args) = 2 := by
  intro v
  have hbalanced : ∀ arg ∈ v.args, IsBalanced (squash arg) := by
    intro arg harg
    rcases List.mem_pair.1 harg with rfl | rfl
    · exact ⟨by decide, by decide⟩
    · exact ⟨by decide, by decide⟩
  have hplain : ∀ arg ∈ v.args, HasPlainQualifiers (groupArgument (squash arg)) := by decide
  obtain ⟨hgrouped, -, hcounted⟩ :=
    groupArgument_separates {} { width := 80, indent := 4 } ['='] v hbalanced
  have hinside : ∀ arg ∈ v.args, SpacesInside (groupArgument (squash arg)) := by
    intro arg harg
    rw [hgrouped arg harg]
    rcases List.mem_pair.1 harg with rfl | rfl
    · exact Or.inl (by decide)
    · exact Or.inr (by decide)
  exact ⟨hbalanced, hplain, by decide, hinside, (hcounted hplain).2 hinside⟩

/-- The bracket that an argument starts with need not be closed at its end. -/
theorem not_spacesInside_groupArgument :
    ¬ ∀ arg : Text, squash arg = arg → IsBalanced arg → SpacesInside (groupArgument arg) := by
  intro h
  have hbalanced : IsBalanced "(a -> b) -> c".toList := ⟨by decide, by decide⟩
  have hinside := h "(a -> b) -> c".toList (by decide) hbalanced
  exact absurd hinside (by decide)

end PackageDocs
