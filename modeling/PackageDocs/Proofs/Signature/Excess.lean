import Mathlib.Data.List.Induction
import Mathlib.Order.Bounds.Image
import PackageDocs.Proofs.Signature.Balance

/-!
# Excess of opening brackets

A depth stops at zero, so it is no difference of counts. It is the greatest difference of
counts that an end of the text has: what closes more than was opened before is forgotten,
and what is behind it is counted from zero. The closing brackets without a partner are what
is missing to the difference for the whole text.

## Main definitions

- `Text.excess`: how many more brackets of one kind open than close
- `Text.IsGreatestExcess`: the greatest excess of a suffix
- `Text.unmatchedFrom`: the number of closing brackets without a partner
- `Text.brackets`: the brackets of one kind alone

## Main results

- `Text.isGreatestExcess_depthFrom`: a depth is the greatest excess
- `Text.depthFrom_eq`: what opens and closes, and what stays without a partner
- `Scan.run_depths`: the depths and the strays of a scan
-/

namespace PackageDocs

namespace Text

/-- How many more brackets of one kind open than close. -/
def excess (opener closer : Char) (t : Text) : Int :=
  t.count opener - t.count closer

/-- The number is the greatest excess of a suffix. The empty suffix has none, so the number is
not below zero. -/
def IsGreatestExcess (opener closer : Char) (t : Text) (n : Int) : Prop :=
  IsGreatest {m | ∃ s, s <:+ t ∧ excess opener closer s = m} n

/-- The number of closing brackets without a partner, when `depth` brackets are open in front
of the text. -/
def unmatchedFrom (opener closer : Char) (depth : Nat) : Text → Nat
  | [] => 0
  | c :: rest =>
    (if c = closer ∧ depth = 0 then 1 else 0) +
      unmatchedFrom opener closer (depthAfter opener closer depth c) rest

/-- The brackets of one kind, without all that is around them. -/
def brackets (opener closer : Char) (t : Text) : Text :=
  t.filter fun c => c = opener ∨ c = closer

variable {opener closer : Char} {depth : Nat} {t : Text}

theorem excess_append (s t : Text) :
    excess opener closer (s ++ t) = excess opener closer s + excess opener closer t := by
  simp only [excess, List.count_append]
  omega

-- ═════════════════════════════════════════════════════════════════════════════
-- Depths in closed form
-- ═════════════════════════════════════════════════════════════════════════════

/-- One character changes the depth by its excess, but not below zero. -/
theorem depthAfter_eq_max (h : opener ≠ closer) (depth : Nat) (c : Char) :
    (depthAfter opener closer depth c : Int) = max 0 (depth + excess opener closer [c]) := by
  simp only [depthAfter, excess, List.count_singleton, beq_iff_eq]
  by_cases hopener : c = opener
  · simp [hopener, h]
    omega
  · by_cases hcloser : c = closer
    · simp [hcloser, h.symm]
      omega
    · simp [hopener, hcloser]

theorem suffixExcesses_concat (opener closer : Char) (t : Text) (c : Char) :
    {m | ∃ s, s <:+ t ++ [c] ∧ excess opener closer s = m} =
      insert 0 ((· + excess opener closer [c]) ''
        {m | ∃ s, s <:+ t ∧ excess opener closer s = m}) := by
  ext m
  constructor
  · rintro ⟨s, hs, rfl⟩
    rcases List.suffix_concat_iff.1 hs with rfl | ⟨front, rfl, hfront⟩
    · exact Or.inl rfl
    · exact Or.inr ⟨_, ⟨front, hfront, rfl⟩, (excess_append front [c]).symm⟩
  · rintro (rfl | ⟨-, ⟨s, hs, rfl⟩, rfl⟩)
    · exact ⟨[], List.nil_suffix, rfl⟩
    · exact ⟨s ++ [c], List.suffix_concat_iff.2 (Or.inr ⟨s, rfl, hs⟩), excess_append s [c]⟩

/-- The depth behind a text is the greatest excess of its suffixes. -/
theorem isGreatestExcess_depthFrom (h : opener ≠ closer) (t : Text) :
    IsGreatestExcess opener closer t (depthFrom opener closer 0 t) := by
  induction t using List.reverseRecOn with
  | nil =>
    constructor
    · exact ⟨[], List.suffix_rfl, rfl⟩
    · rintro _ ⟨s, hs, rfl⟩
      rw [List.suffix_nil.1 hs]
      exact le_refl 0
  | append_singleton t c ih =>
    -- A suffix of the longer text is empty or goes on with the new character.
    have hmono : Monotone (· + excess opener closer [c]) := fun _ _ hle =>
      Int.add_le_add_right hle _
    have hgreatest := (hmono.map_isGreatest ih).insert 0
    rw [← suffixExcesses_concat] at hgreatest
    rw [depthFrom_append, IsGreatestExcess]
    show IsGreatest _ (depthAfter opener closer (depthFrom opener closer 0 t) c : Int)
    rwa [depthAfter_eq_max h]

/-- What opens and closes changes the depth, but for the brackets without a partner. -/
theorem depthFrom_eq (h : opener ≠ closer) (depth : Nat) (t : Text) :
    (depthFrom opener closer depth t : Int) =
      depth + excess opener closer t + unmatchedFrom opener closer depth t := by
  induction t generalizing depth with
  | nil => simp [excess, unmatchedFrom]
  | cons c t ih =>
    have hc : (depthAfter opener closer depth c : Int) =
        depth + excess opener closer [c] + (if c = closer ∧ depth = 0 then 1 else 0 : Nat) := by
      simp only [depthAfter, excess, List.count_singleton, beq_iff_eq]
      by_cases hopener : c = opener
      · simp [hopener, h]
      · by_cases hcloser : c = closer
        · by_cases hdepth : depth = 0 <;> simp [hcloser, h.symm, hdepth]
          omega
        · simp [hopener, hcloser]
    have hexcess : excess opener closer (c :: t) =
        excess opener closer [c] + excess opener closer t := excess_append [c] t
    rw [depthFrom_cons, ih, hc, hexcess, unmatchedFrom]
    omega

theorem depthFrom_eq_zero_iff (h : opener ≠ closer) :
    depthFrom opener closer 0 t = 0 ↔ ∀ s, s <:+ t → s.count opener ≤ s.count closer := by
  obtain ⟨⟨best, hbest, hexcess⟩, hle⟩ := isGreatestExcess_depthFrom h t
  constructor
  · intro hzero s hs
    have hs := hle ⟨s, hs, rfl⟩
    rw [hzero, excess] at hs
    omega
  · intro hall
    have hall := hall best hbest
    rw [excess] at hexcess
    omega

-- ═════════════════════════════════════════════════════════════════════════════
-- One kind of brackets
-- ═════════════════════════════════════════════════════════════════════════════

theorem depthFrom_brackets (opener closer : Char) (depth : Nat) (t : Text) :
    depthFrom opener closer depth (t.brackets opener closer) =
      depthFrom opener closer depth t := by
  induction t generalizing depth with
  | nil => rfl
  | cons c t ih =>
    by_cases hc : c = opener ∨ c = closer
    · rw [brackets, List.filter_cons_of_pos (by simpa using hc)]
      exact ih _
    · rw [brackets, List.filter_cons_of_neg (by simpa using hc), depthFrom_cons]
      rw [not_or] at hc
      rw [depthAfter, if_neg hc.1, if_neg hc.2]
      exact ih depth

theorem excess_brackets (opener closer : Char) (t : Text) :
    excess opener closer (t.brackets opener closer) = excess opener closer t := by
  simp [excess, brackets, List.count_filter]

end Text

open Text

namespace Scan

variable {s : Scan} {rule : Rule} {parens braces : Nat} {t : Text}

/-- The number of strays of one kind. -/
def strayCount (closer : Char) (strays : List (Char × Text)) : Nat :=
  strays.countP fun stray => stray.1 = closer

theorem strayCount_strays_cons (rule : Rule) (s : Scan) (c : Char) (t : Text) (closer : Char) :
    strayCount closer (strays rule s (c :: t)) =
      (if c = closer ∧ s.isStray c = true then 1 else 0) +
        strayCount closer (strays rule (step rule s c) t) := by
  rw [strays, strayCount, strayCount]
  by_cases hstray : s.isStray c = true
  · rw [if_pos hstray, List.countP_cons, Nat.add_comm]
    simp [hstray]
  · simp [hstray]

/-- The strays of a scan are the brackets that have no partner in the text. -/
theorem HasDepths.strayCount_eq (h : s.HasDepths parens braces) (rule : Rule) (t : Text) :
    strayCount ')' (strays rule s t) = unmatchedFrom '(' ')' parens t ∧
      strayCount '}' (strays rule s t) = unmatchedFrom '{' '}' braces t := by
  induction t generalizing s parens braces with
  | nil => exact ⟨rfl, rfl⟩
  | cons c t ih =>
    obtain ⟨hparens, hbraces⟩ := ih (h.step rule c)
    have hparen : (c = ')' ∧ s.isStray c = true) ↔ (c = ')' ∧ parens = 0) :=
      and_congr_right fun hc => by simp [isStray, h.parens, hc]
    have hbrace : (c = '}' ∧ s.isStray c = true) ↔ (c = '}' ∧ braces = 0) :=
      and_congr_right fun hc => by simp [isStray, h.braces, hc]
    constructor
    · simp only [strayCount_strays_cons, hparen, hparens, unmatchedFrom]
    · simp only [strayCount_strays_cons, hbrace, hbraces, unmatchedFrom]

/-- What a scan says of one kind of brackets in a text: its depth is the greatest excess of a
suffix, and its strays are as many as this is more than the excess of the text. -/
structure Counts (opener closer : Char) (t : Text) (depth : Int) (strays : List (Char × Text)) :
    Prop where
  greatest : IsGreatestExcess opener closer t depth
  unmatched : (strayCount closer strays : Int) = depth - excess opener closer t

theorem counts_of_eq {opener closer : Char} (h : opener ≠ closer) {strays : List (Char × Text)}
    (hstrays : strayCount closer strays = unmatchedFrom opener closer 0 t) :
    Counts opener closer t (depthFrom opener closer 0 t) strays := by
  refine ⟨isGreatestExcess_depthFrom h t, ?_⟩
  rw [hstrays, depthFrom_eq h]
  omega

theorem counts_run (rule : Rule) (t : Text) :
    Counts '(' ')' t (fresh.run rule t).parens (strays rule fresh t) ∧
      Counts '{' '}' t (fresh.run rule t).braces (strays rule fresh t) := by
  have hdepths := hasDepths_fresh.run rule t
  obtain ⟨hparens, hbraces⟩ := hasDepths_fresh.strayCount_eq rule t
  rw [hdepths.parens, hdepths.braces]
  exact ⟨counts_of_eq (by decide) hparens, counts_of_eq (by decide) hbraces⟩

/-- The depth and the strays of one kind are those of the brackets of this kind alone. -/
theorem Counts.eq_of_brackets {opener closer : Char} {depth depth' : Int}
    {strays strays' : List (Char × Text)} (h : Counts opener closer t depth strays)
    (h' : Counts opener closer (t.brackets opener closer) depth' strays') (heq : depth' = depth) :
    strayCount closer strays' = strayCount closer strays := by
  have hstrays := h.unmatched
  have hstrays' := h'.unmatched
  rw [excess_brackets, heq, ← hstrays] at hstrays'
  omega

/-- **Depths in closed form.** Under every rule the depth behind a text is the greatest excess
of its suffixes, and the closing brackets without a partner are as many as this is more than
the excess of the text. So the scan ends outside all brackets if and only if no suffix opens
more than it closes. Each kind is counted as if the text had no other characters. -/
theorem run_depths (rule : Rule) (t : Text) :
    let s := fresh.run rule t
    let unmatched (closer : Char) := strayCount closer (strays rule fresh t)
    (Counts '(' ')' t s.parens (strays rule fresh t) ∧
      Counts '{' '}' t s.braces (strays rule fresh t)) ∧
    (s.atTop = true ↔ ∀ suffix, suffix <:+ t →
      suffix.count '(' ≤ suffix.count ')' ∧ suffix.count '{' ≤ suffix.count '}') ∧
    ∀ other : Rule,
      ((fresh.run other (t.brackets '(' ')')).parens = s.parens ∧
        strayCount ')' (strays other fresh (t.brackets '(' ')')) = unmatched ')') ∧
      ((fresh.run other (t.brackets '{' '}')).braces = s.braces ∧
        strayCount '}' (strays other fresh (t.brackets '{' '}')) = unmatched '}') := by
  intro s unmatched
  have hdepths := hasDepths_fresh.run rule t
  refine ⟨counts_run rule t, ?_, ?_⟩
  · rw [hdepths.atTop_iff, depthFrom_eq_zero_iff (by decide), depthFrom_eq_zero_iff (by decide)]
    exact forall₂_and.symm
  · intro other
    have hparens : (fresh.run other (t.brackets '(' ')')).parens = s.parens := by
      rw [(hasDepths_fresh.run other _).parens, depthFrom_brackets, hdepths.parens]
    have hbraces : (fresh.run other (t.brackets '{' '}')).braces = s.braces := by
      rw [(hasDepths_fresh.run other _).braces, depthFrom_brackets, hdepths.braces]
    exact ⟨⟨hparens, (counts_run rule t).1.eq_of_brackets (counts_run other _).1 hparens⟩,
      hbraces, (counts_run rule t).2.eq_of_brackets (counts_run other _).2 hbraces⟩

end Scan

end PackageDocs
