import PackageDocs.Proofs.Signature.Operations

/-!
# Balanced texts

In a balanced text every closing bracket has a partner and no bracket is left open. Such a
text can be put in parentheses: from then on the depth of parentheses is one more than it
was, so all of its spaces stand inside them.

## Main definitions

- `Text.IsBalanced`: a scan of the text meets no closing bracket without a partner and ends
  outside all brackets
- `Text.SpacesInside`: in front of every space a bracket is open
- `Text.outerSpaces`: the number of the other spaces

## Main results

- `Scan.HasDepths.run`: the depths behind a text
- `Text.spacesInside_iff`: a text with its spaces inside has no outer spaces
- `Text.IsBalanced.spacesInside_group`, `Text.IsBalanced.endsAtTop_group`: parentheses around
  a balanced text
-/

namespace PackageDocs

open Text

namespace Text

/-- A scan of the text meets no closing bracket without a partner and ends outside all
brackets. -/
structure IsBalanced (t : Text) : Prop where
  strays : Scan.strays .whole .fresh t = []
  atTop : (Scan.fresh.run .whole t).atTop = true

/-- In front of every space a bracket is open. -/
def SpacesInside (t : Text) : Prop :=
  ∀ before after, t = before ++ ' ' :: after → (Scan.fresh.run .whole before).atTop = false

/-- The number of spaces outside all brackets, if so many are open in front of the text. -/
def outerSpaces (parens braces : Nat) : Text → Nat
  | [] => 0
  | c :: rest =>
    (if c = ' ' ∧ parens = 0 ∧ braces = 0 then 1 else 0) +
      outerSpaces (depthAfter '(' ')' parens c) (depthAfter '{' '}' braces c) rest

-- ═════════════════════════════════════════════════════════════════════════════
-- Depths and spaces
-- ═════════════════════════════════════════════════════════════════════════════

variable {s t : Text} {parens braces : Nat}

theorem outerSpaces_append (s t : Text) :
    outerSpaces parens braces (s ++ t) = outerSpaces parens braces s +
      outerSpaces (depthFrom '(' ')' parens s) (depthFrom '{' '}' braces s) t := by
  induction s generalizing parens braces with
  | nil => exact (Nat.zero_add _).symm
  | cons c s ih =>
    rw [List.cons_append, outerSpaces, outerSpaces, ih, Nat.add_assoc]
    rfl

theorem outerSpaces_of_not_mem (h : ' ' ∉ t) : outerSpaces parens braces t = 0 := by
  induction t generalizing parens braces with
  | nil => rfl
  | cons c t ih =>
    rw [List.mem_cons, not_or] at h
    rw [outerSpaces, if_neg fun hc => h.1 hc.1.symm, ih h.2]

/-- A text has no outer space if a bracket is open in front of all of its spaces. -/
theorem outerSpaces_eq_zero_iff :
    outerSpaces parens braces t = 0 ↔ ∀ before after, t = before ++ ' ' :: after →
      ¬ (depthFrom '(' ')' parens before = 0 ∧ depthFrom '{' '}' braces before = 0) := by
  induction t generalizing parens braces with
  | nil => simp [outerSpaces]
  | cons c t ih =>
    rw [outerSpaces, Nat.add_eq_zero_iff, ih]
    constructor
    · rintro ⟨hfirst, hrest⟩ before after heq
      cases before with
      | nil =>
        obtain ⟨rfl, -⟩ := List.cons.inj heq
        intro hdepths
        rw [if_pos ⟨rfl, hdepths⟩] at hfirst
        exact absurd hfirst Nat.one_ne_zero
      | cons b before =>
        obtain ⟨rfl, rfl⟩ := List.cons.inj heq
        exact hrest before after rfl
    · intro h
      constructor
      · rw [if_neg]
        rintro ⟨rfl, hdepths⟩
        exact h [] t rfl hdepths
      · rintro before after rfl
        exact h (c :: before) after rfl

theorem depthAfter_succ {opener closer c : Char} {depth : Nat} (h : c = closer → depth ≠ 0) :
    depthAfter opener closer (depth + 1) c = depthAfter opener closer depth c + 1 := by
  unfold depthAfter
  split
  · rfl
  · split
    · next hc =>
      have hdepth := h hc
      omega
    · rfl

end Text

-- ═════════════════════════════════════════════════════════════════════════════
-- Balanced texts
-- ═════════════════════════════════════════════════════════════════════════════

namespace Scan

variable {s : Scan} {rule : Rule} {parens braces : Nat} {t : Text}

theorem hasDepths_fresh : fresh.HasDepths 0 0 := ⟨rfl, rfl⟩

theorem HasDepths.step (h : s.HasDepths parens braces) (rule : Rule) (c : Char) :
    (step rule s c).HasDepths (depthAfter '(' ')' parens c) (depthAfter '{' '}' braces c) :=
  h.perform (.read rule c)

theorem HasDepths.run (h : s.HasDepths parens braces) (rule : Rule) (t : Text) :
    (s.run rule t).HasDepths (depthFrom '(' ')' parens t) (depthFrom '{' '}' braces t) := by
  induction t generalizing s parens braces with
  | nil => exact h
  | cons c t ih => exact ih (h.step rule c)

theorem strays_cons_eq_nil_iff {c : Char} :
    strays rule s (c :: t) = [] ↔ s.isStray c = false ∧ strays rule (step rule s c) t = [] := by
  rw [strays]
  split
  · next h => simp [h]
  · next h => simp [h]

theorem HasDepths.isStray_eq_false_iff (h : s.HasDepths parens braces) {c : Char} :
    s.isStray c = false ↔ (c = ')' → parens ≠ 0) ∧ (c = '}' → braces ≠ 0) := by
  rw [isStray, h.parens, h.braces]
  simp

/-- Inside one more parenthesis a text without strays has all of its spaces inside, and
leaves that parenthesis open. -/
theorem HasDepths.inside (h : s.HasDepths parens braces) (hstrays : strays rule s t = []) :
    outerSpaces (parens + 1) braces t = 0 ∧
      depthFrom '(' ')' (parens + 1) t = depthFrom '(' ')' parens t + 1 := by
  induction t generalizing s parens braces with
  | nil => exact ⟨rfl, rfl⟩
  | cons c t ih =>
    obtain ⟨hc, hrest⟩ := strays_cons_eq_nil_iff.1 hstrays
    have hdepth : depthAfter '(' ')' (parens + 1) c = depthAfter '(' ')' parens c + 1 :=
      depthAfter_succ (h.isStray_eq_false_iff.1 hc).1
    obtain ⟨hspaces, hparens⟩ := ih (h.step rule c) hrest
    constructor
    · rw [outerSpaces, if_neg (by simp), hdepth, hspaces]
    · rw [depthFrom_cons, hdepth, hparens, depthFrom_cons]

end Scan

open Scan

namespace Text

variable {s t : Text}

theorem spacesInside_iff : SpacesInside t ↔ outerSpaces 0 0 t = 0 := by
  rw [outerSpaces_eq_zero_iff]
  refine forall₃_congr fun before after _ => ?_
  rw [← (hasDepths_fresh.run .whole before).atTop_iff, Bool.not_eq_true]

instance : DecidablePred SpacesInside := fun _ => decidable_of_iff _ spacesInside_iff.symm

theorem endsAtTop_iff : EndsAtTop t ↔ (fresh.run .whole t).atTop = true :=
  (hasDepths_fresh.run .whole t).atTop_iff.symm

/-- Parentheses around a balanced text have all of its spaces inside. -/
theorem IsBalanced.spacesInside_group (h : IsBalanced t) : SpacesInside ('(' :: t ++ [')']) := by
  obtain ⟨hspaces, -⟩ := hasDepths_fresh.inside h.strays
  have hopen : depthAfter '(' ')' 0 '(' = 0 + 1 := rfl
  have hbraces : depthAfter '{' '}' 0 '(' = 0 := rfl
  rw [spacesInside_iff, List.cons_append, outerSpaces, if_neg (by decide), hopen, hbraces,
    outerSpaces_append, hspaces, outerSpaces_of_not_mem (by decide)]

theorem IsBalanced.endsAtTop_group (h : IsBalanced t) : EndsAtTop ('(' :: t ++ [')']) := by
  obtain ⟨-, hparens⟩ := hasDepths_fresh.inside h.strays
  obtain ⟨htop, hbraces⟩ := endsAtTop_iff.2 h.atTop
  constructor
  · show depthFrom '(' ')' (0 + 1) (t ++ [')']) = 0
    rw [depthFrom_append, hparens, htop]
    rfl
  · show depthFrom '{' '}' 0 (t ++ [')']) = 0
    rw [depthFrom_append, hbraces]
    rfl

end Text

end PackageDocs
