import PackageDocs.Proofs.Signature.Arguments
import PackageDocs.Proofs.Signature.Balance

/-!
# Joining arguments

Texts that cannot be cut are put together with arrows. Cutting the result gives them back
if each arrow stands outside all brackets and begins where it was put: a text that ends in
` ->` would make an arrow with the space behind it.

## Main results

- `argumentsFrom_append`: an arrow outside brackets cuts behind a text
- `splitArguments_intercalate`: what is joined with arrows is cut into its parts
-/

namespace PackageDocs

open Text

variable {parens braces : Nat} {t : Text}

theorem Text.attach_append (front : Text) {parts : List Text} (h : parts ≠ [])
    (later : List Text) : attach front (parts ++ later) = attach front parts ++ later := by
  obtain ⟨first, rest, rfl⟩ := List.exists_cons_of_ne_nil h
  rfl

/-- An arrow put behind a text is the first one there, unless the text ends in ` ->`. -/
theorem Text.not_arrow_append {c : Char} (hend : ¬ [' ', '-', '>'] <:+ c :: t)
    (hnot : ∀ rest, c = ' ' → t = '-' :: '>' :: ' ' :: rest → False) (behind : Text) :
    ∀ rest, c = ' ' → t ++ arrow ++ behind = '-' :: '>' :: ' ' :: rest → False := by
  rintro rest rfl heq
  match t with
  | [] => simp [arrow] at heq
  | [_] => simp [arrow] at heq
  | [a, b] =>
    obtain ⟨rfl, rfl, -⟩ : a = '-' ∧ b = '>' ∧ _ := by simpa [arrow] using heq
    exact hend (List.suffix_refl _)
  | a :: b :: d :: later =>
    obtain ⟨rfl, rfl, rfl, -⟩ : a = '-' ∧ b = '>' ∧ d = ' ' ∧ _ := by simpa using heq
    exact hnot later rfl rfl

/-- Behind a text that leaves no bracket open an arrow cuts, and everything starts over. -/
theorem argumentsFrom_append (hend : ¬ [' ', '-', '>'] <:+ t)
    (hparens : depthFrom '(' ')' parens t = 0) (hbraces : depthFrom '{' '}' braces t = 0)
    (behind : Text) :
    argumentsFrom parens braces (t ++ arrow ++ behind) =
      argumentsFrom parens braces t ++ argumentsFrom 0 0 behind := by
  induction t using markArrows.induct generalizing parens braces with
  | case1 rest ih =>
    have hrest : ¬ [' ', '-', '>'] <:+ rest :=
      fun h => hend (h.trans (List.suffix_append arrow rest))
    have hlater : argumentsFrom parens braces (rest ++ arrow ++ behind) =
        argumentsFrom parens braces rest ++ argumentsFrom 0 0 behind := ih hrest hparens hbraces
    show argumentsFrom parens braces (' ' :: '-' :: '>' :: ' ' :: (rest ++ arrow ++ behind)) = _
    rw [argumentsFrom, argumentsFrom, hlater, attach_append _ (argumentsFrom_ne_nil _ _ _)]
    split <;> rfl
  | case2 c rest hnot ih =>
    have hrest : ¬ [' ', '-', '>'] <:+ rest := fun h => hend (h.trans (List.suffix_cons c rest))
    rw [argumentsFrom.eq_2 parens braces c rest hnot, List.cons_append, List.cons_append,
      argumentsFrom.eq_2 parens braces c _ (not_arrow_append hend hnot behind)]
    by_cases hmark : c = Scan.arrowMark ∧ parens = 0 ∧ braces = 0
    · obtain ⟨rfl, rfl, rfl⟩ := hmark
      have hlater : argumentsFrom 0 0 (rest ++ arrow ++ behind) =
          argumentsFrom 0 0 rest ++ argumentsFrom 0 0 behind := ih hrest hparens hbraces
      rw [if_pos ⟨rfl, rfl, rfl⟩, if_pos ⟨rfl, rfl, rfl⟩, hlater]
      rfl
    · rw [if_neg hmark, if_neg hmark, ih hrest hparens hbraces,
        attach_append _ (argumentsFrom_ne_nil _ _ _)]
  | case3 =>
    obtain rfl : parens = 0 := hparens
    obtain rfl : braces = 0 := hbraces
    rfl

/-- **Joined arguments are found again.** Texts that are not cut themselves, joined with
arrows, are cut at these arrows and nowhere else, if no text in front of an arrow leaves a
bracket open or ends in ` ->`. A text that is cut into itself alone holds no mark. -/
theorem splitArguments_intercalate (parts : List Text) (hne : parts ≠ [])
    (hwhole : ∀ part ∈ parts, splitArguments part = [part])
    (hseam : ∀ part ∈ parts.dropLast,
      (Scan.fresh.run .whole part).atTop = true ∧ ¬ " ->".toList <:+ part) :
    splitArguments (arrow.intercalate parts) = parts := by
  induction parts with
  | nil => exact absurd rfl hne
  | cons part parts ih =>
    have hpart : splitArguments part = [part] := hwhole part List.mem_cons_self
    cases parts with
    | nil => rwa [List.intercalate_singleton]
    | cons next later =>
      rw [List.dropLast_cons_cons, List.forall_mem_cons] at hseam
      obtain ⟨⟨htop, hend⟩, hlater⟩ := hseam
      obtain ⟨hparens, hbraces⟩ := endsAtTop_iff.2 htop
      have hrest := ih (List.cons_ne_nil _ _) (List.forall_mem_cons.1 hwhole).2 hlater
      rw [List.intercalate_cons_cons, splitArguments_eq_map,
        argumentsFrom_append hend hparens hbraces, List.map_append, ← splitArguments_eq_map,
        ← splitArguments_eq_map, hpart, hrest]
      rfl

/-- Parts with an arrow in a record, without any character, with an arrow at the start, and
with a parenthesis left open. -/
theorem splitArguments_intercalate_mixed :
    let parts := ["{ f : a -> b }".toList, [], "-> c)".toList, "(d -> e".toList]
    (parts ≠ [] ∧ (∀ part ∈ parts, splitArguments part = [part]) ∧
      ∀ part ∈ parts.dropLast,
        (Scan.fresh.run .whole part).atTop = true ∧ ¬ " ->".toList <:+ part) ∧
      splitArguments "{ f : a -> b } ->  -> -> c) -> (d -> e".toList = parts := by
  intro parts
  have hne : parts ≠ [] := by decide
  have hwhole : ∀ part ∈ parts, splitArguments part = [part] := by decide
  have hseam : ∀ part ∈ parts.dropLast,
      (Scan.fresh.run .whole part).atTop = true ∧ ¬ " ->".toList <:+ part := by decide
  exact ⟨⟨hne, hwhole, hseam⟩, splitArguments_intercalate parts hne hwhole hseam⟩

end PackageDocs
