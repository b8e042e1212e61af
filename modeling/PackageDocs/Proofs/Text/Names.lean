import Mathlib.Data.Finset.Insert
import Mathlib.Data.List.Basic
import PackageDocs.Text.Mentions

/-!
# Lists of names

Two ways to put names in order: where they are first mentioned, and by code point. The first
mentions can be read off the end of the list or entered in a register from its start; what
later names add to earlier ones is what they add to the register.

## Main definitions

- `Text.Register`: the names seen so far, with the list of their first mentions
- `Text.Before`: the strict order of texts by code point

## Main results

- `Text.Register.listed_foldl_enter`: what names entered one by one add to a register
- `Text.firstMentions_append`: later mentions add the names that are new
- `Text.nodup_firstMentions`, `Text.firstMentions_of_nodup`: no name is mentioned twice
- `Text.firstMentions_once_in_order`: each name once, in the order of the first places
- `Text.pairwise_before_mergeSort`: distinct names are sorted strictly
-/

namespace PackageDocs

namespace Text

-- ═════════════════════════════════════════════════════════════════════════════
-- First mentions
-- ═════════════════════════════════════════════════════════════════════════════

theorem nodup_firstMentions (names : List Text) : (firstMentions names).Nodup := by
  induction names with
  | nil => exact List.nodup_nil
  | cons name rest ih =>
    rw [firstMentions, List.nodup_cons]
    refine ⟨?_, ih.filter _⟩
    intro hmem
    have hne := (List.mem_filter.1 hmem).2
    simp at hne

/-- The first mention counts unless the name stands earlier; then none of its mentions does. -/
theorem filter_firstMentions_cons (earlier : List Text) (name : Text) (rest : List Text) :
    (firstMentions (name :: rest)).filter (· ∉ earlier) =
      (if name ∈ earlier then [] else [name]) ++
        (firstMentions rest).filter (· ∉ earlier ++ [name]) := by
  have hrest : ((firstMentions rest).filter (· != name)).filter (· ∉ earlier) =
      (firstMentions rest).filter (· ∉ earlier ++ [name]) := by
    rw [List.filter_filter]
    apply List.filter_congr
    intro other _
    by_cases hother : other = name <;> simp [hother]
  rw [firstMentions, List.filter_cons, hrest]
  by_cases hname : name ∈ earlier <;> simp [hname]

/-- A register of names: those seen, as a set, and the list of them in the order of entry. -/
structure Register where
  seen : Finset Text
  listed : List Text
  mem_seen : ∀ name, name ∈ seen ↔ name ∈ listed

namespace Register

/-- No name is seen yet. -/
def empty : Register := ⟨∅, [], by simp⟩

/-- A name that was not seen is entered at the end. -/
def enter (register : Register) (name : Text) : Register :=
  if name ∈ register.seen then register
  else ⟨insert name register.seen, register.listed ++ [name], by simp [register.mem_seen, or_comm]⟩

theorem listed_enter (register : Register) (name : Text) :
    (register.enter name).listed =
      register.listed ++ if name ∈ register.listed then [] else [name] := by
  rw [enter, apply_ite listed]
  by_cases hname : name ∈ register.listed <;> simp [register.mem_seen, hname]

/-- Names that are entered one by one: the list grows by their first mentions, without the names
that stand on it. -/
theorem listed_foldl_enter (names : List Text) (register : Register) :
    (names.foldl enter register).listed =
      register.listed ++ (firstMentions names).filter (· ∉ register.listed) := by
  induction names generalizing register with
  | nil => simp [firstMentions]
  | cons name rest ih =>
    rw [List.foldl_cons, ih, listed_enter, filter_firstMentions_cons, List.append_assoc]
    by_cases hname : name ∈ register.listed
    · -- The name is on the list already, which therefore excludes the same names without it.
      have hsame : (firstMentions rest).filter (· ∉ register.listed ++ [name]) =
          (firstMentions rest).filter (· ∉ register.listed) := by
        apply List.filter_congr
        intro other _
        by_cases hother : other = name <;> simp [hother, hname]
      rw [if_pos hname, hsame, List.append_nil]
    · rw [if_neg hname]

theorem listed_foldl_enter_empty (names : List Text) :
    (names.foldl enter empty).listed = firstMentions names := by
  rw [listed_foldl_enter]
  simp [empty]

end Register

/-- Later mentions add the names that are new. -/
theorem firstMentions_append (xs ys : List Text) :
    firstMentions (xs ++ ys) = firstMentions xs ++ (firstMentions ys).filter (· ∉ xs) := by
  -- When the later names are entered, the earlier first mentions are on the list.
  rw [← Register.listed_foldl_enter_empty, List.foldl_append, Register.listed_foldl_enter,
    Register.listed_foldl_enter_empty]
  simp only [mem_firstMentions]

theorem firstMentions_of_nodup {names : List Text} (h : names.Nodup) :
    firstMentions names = names := by
  induction names with
  | nil => rfl
  | cons name rest ih =>
    obtain ⟨hname, hrest⟩ := List.nodup_cons.1 h
    rw [firstMentions, ih hrest, List.filter_eq_self.2]
    intro other hother
    have hne : other ≠ name := fun heq => hname (heq ▸ hother)
    simpa using hne

/-- Names may be dropped early that are mentioned again: line by line or all at once, the
first mentions are the same. -/
theorem firstMentions_flatMap {α : Type} (f : α → List Text) (xs : List α) :
    firstMentions (xs.flatMap fun x => firstMentions (f x)) = firstMentions (xs.flatMap f) := by
  induction xs with
  | nil => rfl
  | cons x xs ih =>
    rw [List.flatMap_cons, List.flatMap_cons, firstMentions_append, firstMentions_append, ih,
      firstMentions_of_nodup (nodup_firstMentions (f x))]
    congr 1
    apply List.filter_congr
    intro name _
    simp only [mem_firstMentions]

theorem pairwise_idxOf_firstMentions (names : List Text) :
    (firstMentions names).Pairwise fun s t => names.idxOf s < names.idxOf t := by
  induction names with
  | nil => exact .nil
  | cons name rest ih =>
    have hne : ∀ other ∈ (firstMentions rest).filter (· != name), name ≠ other := by
      intro other hother heq
      simp [heq] at hother
    rw [firstMentions, List.pairwise_cons]
    constructor
    · intro other hother
      rw [List.idxOf_cons_self, List.idxOf_cons_ne rest (hne other hother)]
      exact Nat.succ_pos _
    · -- The names behind the first move on by one place, all of them.
      apply (ih.filter _).imp_of_mem
      intro s t hs ht hlt
      rw [List.idxOf_cons_ne rest (hne s hs), List.idxOf_cons_ne rest (hne t ht)]
      exact Nat.succ_lt_succ hlt

/-- **Each name counts once, where it is first mentioned.** The first mentions are the names
mentioned, without repetition and in the order of their first places. Later mentions add, in
their own order, the names that are new; so nothing changes when first mentions are taken
again. -/
theorem firstMentions_once_in_order (names : List Text) :
    (firstMentions names).Nodup ∧
    (∀ name, name ∈ firstMentions names ↔ name ∈ names) ∧
    (firstMentions names).Pairwise (fun s t => names.idxOf s < names.idxOf t) ∧
    (∀ later, firstMentions (names ++ later) =
      firstMentions names ++ (firstMentions later).filter (· ∉ names)) ∧
    firstMentions (firstMentions names) = firstMentions names := by
  have hnodup := nodup_firstMentions names
  exact ⟨hnodup, fun _ => mem_firstMentions, pairwise_idxOf_firstMentions names,
    firstMentions_append names, firstMentions_of_nodup hnodup⟩

-- ═════════════════════════════════════════════════════════════════════════════
-- The order by code point
-- ═════════════════════════════════════════════════════════════════════════════

/-- The strict order of texts by code point: a text stands before its continuations, and
otherwise the first difference decides. -/
abbrev Before : Text → Text → Prop :=
  List.Lex fun a b => a.toNat < b.toNat

theorem atMost_total (s t : Text) : (atMost s t || atMost t s) = true := by
  induction s generalizing t with
  | nil => simp [atMost]
  | cons a s ih =>
    cases t with
    | nil => simp [atMost]
    | cons b t =>
      have hrest := ih t
      by_cases hab : a = b
      · subst hab
        simpa [atMost] using hrest
      · have hne : a.toNat ≠ b.toNat := fun h => hab (Char.toNat_inj.1 h)
        rcases Nat.lt_or_gt_of_ne hne with hlt | hlt
        · simp [atMost, hlt]
        · simp [atMost, hlt]

theorem atMost_trans (s t u : Text) (hst : atMost s t = true) (htu : atMost t u = true) :
    atMost s u = true := by
  induction s generalizing t u with
  | nil => simp [atMost]
  | cons a s ih =>
    cases t with
    | nil => simp [atMost] at hst
    | cons b t =>
      cases u with
      | nil => simp [atMost] at htu
      | cons c u =>
        simp only [atMost, Bool.or_eq_true, decide_eq_true_eq, Bool.and_eq_true, beq_iff_eq]
          at hst htu ⊢
        rcases hst with hab | ⟨rfl, hst⟩
        · rcases htu with hbc | ⟨rfl, -⟩
          · exact .inl (Nat.lt_trans hab hbc)
          · exact .inl hab
        · rcases htu with hac | ⟨rfl, htu⟩
          · exact .inl hac
          · exact .inr ⟨rfl, ih t u hst htu⟩

theorem before_of_atMost {s t : Text} (h : atMost s t = true) (hne : s ≠ t) : Before s t := by
  induction s generalizing t with
  | nil =>
    cases t with
    | nil => exact absurd rfl hne
    | cons b t => exact .nil
  | cons a s ih =>
    cases t with
    | nil => simp [atMost] at h
    | cons b t =>
      simp only [atMost, Bool.or_eq_true, decide_eq_true_eq, Bool.and_eq_true, beq_iff_eq] at h
      rcases h with hlt | ⟨rfl, h⟩
      · exact .rel hlt
      · exact .cons (ih h fun heq => hne (heq ▸ rfl))

theorem pairwise_before_mergeSort {names : List Text} (h : names.Nodup) :
    (names.mergeSort atMost).Pairwise Before := by
  have hsorted := List.pairwise_mergeSort atMost_trans atMost_total names
  have hnodup : (names.mergeSort atMost).Nodup := (List.mergeSort_perm names atMost).nodup_iff.2 h
  exact (hsorted.and hnodup).imp fun ⟨hle, hne⟩ => before_of_atMost hle hne

end Text

end PackageDocs
