import PackageDocs.Proofs.Signature.Arguments

/-!
# Cuts between arguments

The arguments of a type are what stands between its arrows outside brackets. Inside an
argument every arrow is inside brackets, so none can be cut again.

## Main definitions

- `Text.arrows`: where the arrows of a text start and end, read from the left
- `topArrows`: those before which no bracket is open
- `Text.between`: what stands between places of a text
- `Text.Nested`: no arrow of a text is outside brackets

## Main results

- `between_topArrowsFrom`: a type is cut at its arrows outside brackets
- `argumentsFrom_eq_singleton`: a nested text is one argument
- `nestedArguments_argumentsFrom`: arguments are nested
- `splitArguments_cuts`: what cutting a type keeps, and where it is cut
-/

namespace PackageDocs

open Text

/-- The places of the arrows in a text that starts at `offset`, each with its end. They
are read from the left and do not overlap; a mark is an arrow. -/
def Text.arrows (offset : Nat) : Text → List (Nat × Nat)
  | ' ' :: '-' :: '>' :: ' ' :: rest => (offset, offset + 4) :: arrows (offset + 4) rest
  | c :: rest =>
    if c = Scan.arrowMark then (offset, offset + 1) :: arrows (offset + 1) rest
    else arrows (offset + 1) rest
  | [] => []

/-- The arrows of the type before which every bracket is closed. -/
def topArrows (type : Text) : List (Nat × Nat) :=
  (type.arrows 0).filter fun place => EndsAtTop (type.take place.1)

/-- What stands in the text from `start` on between the given places. -/
def Text.between (t : Text) (start : Nat) : List (Nat × Nat) → List Text
  | [] => [t.drop start]
  | (first, last) :: places => (t.take first).drop start :: between t last places

variable {parens braces : Nat}

/-- The places of the arrows in the rest of a text, without those inside brackets. -/
def topArrowsFrom (front rest : Text) : List (Nat × Nat) :=
  (rest.arrows front.length).filter fun place => EndsAtTop ((front ++ rest).take place.1)

/-- An arrow, spelled out or marked, cuts behind `front` if no bracket is open there. -/
theorem between_arrow_cons (front sep rest : Text) (start : Nat) (hstart : start ≤ front.length)
    (hsep : ∀ bracket ∈ ['(', ')', '{', '}'], bracket ∉ sep)
    (ih : ∀ start ≤ (front ++ sep).length,
      (front ++ sep ++ rest).between start (topArrowsFrom (front ++ sep) rest) =
        attach ((front ++ sep).drop start) (argumentsFrom (depthFrom '(' ')' 0 (front ++ sep))
          (depthFrom '{' '}' 0 (front ++ sep)) rest)) :
    (front ++ sep ++ rest).between start
        (((front.length, (front ++ sep).length) :: rest.arrows (front ++ sep).length).filter
          fun place => EndsAtTop ((front ++ sep ++ rest).take place.1)) =
      attach (front.drop start)
        (if EndsAtTop front then [] :: argumentsFrom 0 0 rest
          else attach sep (argumentsFrom (depthFrom '(' ')' 0 front)
            (depthFrom '{' '}' 0 front) rest)) := by
  have htake : (front ++ sep ++ rest).take front.length = front := by
    rw [List.append_assoc, List.take_left]
  have hlength : (front ++ sep).length = front.length + sep.length := List.length_append
  have hparens : depthFrom '(' ')' 0 (front ++ sep) = depthFrom '(' ')' 0 front := by
    rw [depthFrom_append, depthFrom_of_not_mem (hsep '(' (by simp)) (hsep ')' (by simp))]
  have hbraces : depthFrom '{' '}' 0 (front ++ sep) = depthFrom '{' '}' 0 front := by
    rw [depthFrom_append, depthFrom_of_not_mem (hsep '{' (by simp)) (hsep '}' (by simp))]
  rw [hparens, hbraces] at ih
  rw [List.filter_cons, htake]
  by_cases htop : EndsAtTop front
  · rw [if_pos (decide_eq_true htop), if_pos htop, Text.between, htake]
    show _ :: (front ++ sep ++ rest).between _ (topArrowsFrom (front ++ sep) rest) = _
    rw [ih _ (Nat.le_refl _), List.drop_length, attach_nil (argumentsFrom_ne_nil _ _ _), attach,
      List.append_nil, htop.1, htop.2]
  · rw [if_neg fun h => htop (of_decide_eq_true h), if_neg htop, attach_attach]
    show (front ++ sep ++ rest).between start (topArrowsFrom (front ++ sep) rest) = _
    rw [ih start (by omega), List.drop_append_of_le_length hstart]

/-- The arguments of the rest of a text stand between the arrows of the rest that are
outside brackets. -/
theorem between_topArrowsFrom (front t : Text) (start : Nat) (hstart : start ≤ front.length) :
    (front ++ t).between start (topArrowsFrom front t) =
      attach (front.drop start)
        (argumentsFrom (depthFrom '(' ')' 0 front) (depthFrom '{' '}' 0 front) t) := by
  induction t using markArrows.induct generalizing front start with
  | case1 rest ih =>
    have hlength : (front ++ arrow).length = front.length + 4 := List.length_append
    have happend : front ++ ' ' :: '-' :: '>' :: ' ' :: rest = front ++ arrow ++ rest := by
      simp [arrow]
    have hstep := between_arrow_cons front arrow rest start hstart (by simp [arrow])
      (ih (front ++ arrow))
    rw [argumentsFrom, topArrowsFrom, Text.arrows, ← hlength, happend, hstep]
    by_cases htop : EndsAtTop front
    · rw [if_pos htop, if_pos (show _ ∧ _ from htop), htop.1, htop.2]
    · rw [if_neg htop, if_neg (show ¬(_ ∧ _) from htop)]
  | case2 c rest hnot ih =>
    have hlength : (front ++ [c]).length = front.length + 1 := List.length_append
    have happend : front ++ c :: rest = front ++ [c] ++ rest := by simp
    rw [argumentsFrom.eq_2 _ _ c rest hnot, topArrowsFrom, Text.arrows.eq_2 _ c rest hnot,
      ← hlength, happend]
    by_cases hmark : c = Scan.arrowMark
    · subst hmark
      have hstep := between_arrow_cons front [Scan.arrowMark] rest start hstart
        (by simp [Scan.arrowMark]) (ih (front ++ [Scan.arrowMark]))
      rw [if_pos rfl, hstep]
      by_cases htop : EndsAtTop front
      · rw [if_pos htop, if_pos ⟨rfl, htop⟩, htop.1, htop.2]
      · rw [if_neg htop, if_neg fun h => htop h.2]
        rfl
    · rw [if_neg hmark, if_neg fun h => hmark h.1, attach_attach]
      show (front ++ [c] ++ rest).between start (topArrowsFrom (front ++ [c]) rest) = _
      rw [ih (front ++ [c]) start (by omega), List.drop_append_of_le_length hstart,
        depthFrom_append, depthFrom_append]
      rfl
  | case3 =>
    simp [topArrowsFrom, Text.arrows, Text.between, argumentsFrom, attach]

/-- No arrow of the text is outside brackets, when the given numbers of parentheses and
braces are open in front of it. -/
def Text.Nested (parens braces : Nat) (t : Text) : Prop :=
  ∀ before after, t = before ++ arrow ++ after →
    ¬(depthFrom '(' ')' parens before = 0 ∧ depthFrom '{' '}' braces before = 0)

namespace Text

theorem nested_nil : Nested parens braces [] := by
  intro before after h
  exact absurd (congrArg List.length h) (by simp [arrow])

/-- A character in front of a nested text, unless it begins an arrow outside brackets. -/
theorem Nested.cons {c : Char} {t : Text}
    (h : Nested (depthAfter '(' ')' parens c) (depthAfter '{' '}' braces c) t)
    (hstart : ∀ after, c :: t = arrow ++ after → ¬(parens = 0 ∧ braces = 0)) :
    Nested parens braces (c :: t) := by
  intro before after heq
  cases before with
  | nil => exact hstart after heq
  | cons d before =>
    obtain ⟨rfl, htail⟩ := List.cons.inj heq
    exact h before after htail

theorem Nested.tail {c : Char} {t : Text} (h : Nested parens braces (c :: t)) :
    Nested (depthAfter '(' ')' parens c) (depthAfter '{' '}' braces c) t := by
  intro before after heq
  exact h (c :: before) after (by rw [heq]; rfl)

theorem Nested.arrow_append {t : Text} (h : Nested parens braces t)
    (hdepth : ¬(parens = 0 ∧ braces = 0)) : Nested parens braces (arrow ++ t) :=
  -- None of the four characters is a bracket.
  ((((h.cons (c := ' ') fun _ _ => hdepth).cons (c := '>') fun _ _ => hdepth).cons (c := '-')
    fun _ _ => hdepth).cons (c := ' ') fun _ _ => hdepth)

end Text

/-- A text without marks whose arrows are inside brackets is one argument. -/
theorem argumentsFrom_eq_singleton {t : Text} (hnested : Nested parens braces t)
    (hmark : Scan.arrowMark ∉ t) : argumentsFrom parens braces t = [t] := by
  induction t using markArrows.induct generalizing parens braces with
  | case1 rest ih =>
    have hdepth : ¬(parens = 0 ∧ braces = 0) := hnested [] rest rfl
    have hrest : Nested parens braces rest := hnested.tail.tail.tail.tail
    have hmark' : Scan.arrowMark ∉ rest := fun h => hmark (List.mem_append_right arrow h)
    rw [argumentsFrom, if_neg hdepth, ih hrest hmark']
    rfl
  | case2 c rest hnot ih =>
    rw [List.mem_cons, not_or] at hmark
    rw [argumentsFrom.eq_2 parens braces c rest hnot, if_neg fun h => hmark.1 h.1.symm,
      ih hnested.tail hmark.2]
    rfl
  | case3 => rfl

/-- Outside brackets the first argument begins as the text does, once it has a character
that is no bracket. -/
theorem exists_eq_cons_of_argumentsFrom {t first : Text} {later : List Text} {d : Char} {u : Text}
    (h : argumentsFrom 0 0 t = first :: later) (hfirst : unmarkArrows first = d :: u)
    (hparens : depthAfter '(' ')' 0 d = 0) (hbraces : depthAfter '{' '}' 0 d = 0) :
    ∃ rest next, t = d :: rest ∧ argumentsFrom 0 0 rest = next :: later ∧
      unmarkArrows next = u := by
  induction t using markArrows.induct with
  | case1 rest ih =>
    -- An arrow leaves the first argument empty.
    rw [argumentsFrom, if_pos ⟨rfl, rfl⟩] at h
    rw [← (List.cons.inj h).1] at hfirst
    exact absurd hfirst (List.cons_ne_nil d u).symm
  | case2 c rest hnot ih =>
    rw [argumentsFrom.eq_2 0 0 c rest hnot] at h
    by_cases hc : c = Scan.arrowMark
    · rw [if_pos ⟨hc, rfl, rfl⟩] at h
      rw [← (List.cons.inj h).1] at hfirst
      exact absurd hfirst (List.cons_ne_nil d u).symm
    · rw [if_neg fun hmark => hc hmark.1] at h
      obtain ⟨next, parts, hparts⟩ :=
        List.exists_cons_of_ne_nil (argumentsFrom_ne_nil _ _ rest)
      rw [hparts, attach] at h
      obtain ⟨rfl, rfl⟩ := List.cons.inj h
      rw [List.singleton_append, unmarkArrows_cons_of_ne hc] at hfirst
      obtain ⟨rfl, rfl⟩ := List.cons.inj hfirst
      rw [hparens, hbraces] at hparts
      exact ⟨rest, next, rfl, hparts, rfl⟩
  | case3 =>
    rw [argumentsFrom] at h
    rw [← (List.cons.inj h).1] at hfirst
    exact absurd hfirst (List.cons_ne_nil d u).symm

/-- The first of the arguments is nested at the given depths, the others outside brackets. -/
def NestedArguments (parens braces : Nat) : List Text → Prop
  | [] => True
  | first :: later =>
    Nested parens braces (unmarkArrows first) ∧
      ∀ argument ∈ later, Nested 0 0 (unmarkArrows argument)

theorem NestedArguments.of_mem {parts : List Text} (h : NestedArguments 0 0 parts)
    {argument : Text} (hargument : argument ∈ parts) : Nested 0 0 (unmarkArrows argument) := by
  cases parts with
  | nil => exact absurd hargument List.not_mem_nil
  | cons first later =>
    rcases List.mem_cons.1 hargument with rfl | hlater
    · exact h.1
    · exact h.2 argument hlater

/-- Behind an arrow outside brackets everything starts over. -/
theorem NestedArguments.nil_cons {parts : List Text} (h : NestedArguments 0 0 parts) :
    NestedArguments 0 0 ([] :: parts) :=
  ⟨nested_nil, fun _ hargument => h.of_mem hargument⟩

/-- Inside brackets an arrow joins the first argument. -/
theorem NestedArguments.attach {parts : List Text} (h : NestedArguments parens braces parts)
    (hparts : parts ≠ []) (hdepth : ¬(parens = 0 ∧ braces = 0)) {sep : Text}
    (hsep : unmarkArrows sep = arrow) : NestedArguments parens braces (Text.attach sep parts) := by
  obtain ⟨first, later, rfl⟩ := List.exists_cons_of_ne_nil hparts
  rw [Text.attach, NestedArguments, unmarkArrows_append, hsep]
  exact ⟨h.1.arrow_append hdepth, h.2⟩

/-- No arrow outside brackets is left in an argument of the rest of a text. -/
theorem nestedArguments_argumentsFrom (t : Text) :
    NestedArguments parens braces (argumentsFrom parens braces t) := by
  induction t using markArrows.induct generalizing parens braces with
  | case1 rest ih =>
    rw [argumentsFrom]
    by_cases htop : parens = 0 ∧ braces = 0
    · rw [if_pos htop]
      obtain ⟨rfl, rfl⟩ := htop
      exact ih.nil_cons
    · rw [if_neg htop]
      exact ih.attach (argumentsFrom_ne_nil _ _ _) htop rfl
  | case2 c rest hnot ih =>
    rw [argumentsFrom.eq_2 parens braces c rest hnot]
    by_cases htop : c = Scan.arrowMark ∧ parens = 0 ∧ braces = 0
    · rw [if_pos htop]
      obtain ⟨-, rfl, rfl⟩ := htop
      exact ih.nil_cons
    · rw [if_neg htop]
      by_cases hmark : c = Scan.arrowMark
      · subst hmark
        exact NestedArguments.attach ih (argumentsFrom_ne_nil _ _ _) (fun h => htop ⟨rfl, h⟩) rfl
      · obtain ⟨first, later, hparts⟩ :=
          List.exists_cons_of_ne_nil (argumentsFrom_ne_nil (depthAfter '(' ')' parens c)
            (depthAfter '{' '}' braces c) rest)
        have hrest := @ih (depthAfter '(' ')' parens c) (depthAfter '{' '}' braces c)
        rw [hparts] at hrest ⊢
        rw [Text.attach, NestedArguments, List.singleton_append, unmarkArrows_cons_of_ne hmark]
        refine ⟨hrest.1.cons ?_, hrest.2⟩
        rintro after hafter ⟨rfl, rfl⟩
        -- An arrow outside brackets would have been read from the text.
        obtain ⟨rfl, htail⟩ := List.cons.inj hafter
        obtain ⟨_, _, rfl, hparts, hnext⟩ := exists_eq_cons_of_argumentsFrom hparts htail rfl rfl
        obtain ⟨_, _, rfl, hparts, hnext⟩ := exists_eq_cons_of_argumentsFrom hparts hnext rfl rfl
        obtain ⟨last, _, rfl, -⟩ := exists_eq_cons_of_argumentsFrom hparts hnext rfl rfl
        exact hnot last rfl rfl
  | case3 =>
    exact ⟨nested_nil, fun argument hargument => absurd hargument List.not_mem_nil⟩

/-- **Cutting a type keeps all of it.** Put together again its arguments are the type, with
every mark spelled out. The cuts are the arrows, read from the left without overlap,
before which every parenthesis and every brace is closed, and no argument can be cut
again. -/
theorem splitArguments_cuts (type : Text) :
    arrow.intercalate (splitArguments type) = unmarkArrows type ∧
      (Scan.arrowMark ∉ type → arrow.intercalate (splitArguments type) = type) ∧
      (∀ argument ∈ splitArguments type, splitArguments argument = [argument]) ∧
      splitArguments type = (type.between 0 (topArrows type)).map unmarkArrows := by
  refine ⟨intercalate_splitArguments type, intercalate_splitArguments_of_not_mem,
    fun argument hargument => ?_, ?_⟩
  · rw [splitArguments_eq_map] at hargument
    obtain ⟨part, hpart, rfl⟩ := List.mem_map.1 hargument
    have hmark := arrowMark_not_mem_unmarkArrows part
    have hnested := (nestedArguments_argumentsFrom type).of_mem hpart
    rw [splitArguments_eq_map, argumentsFrom_eq_singleton hnested hmark]
    show [unmarkArrows (unmarkArrows part)] = _
    rw [unmarkArrows_of_not_mem hmark]
  · have hbetween := between_topArrowsFrom [] type 0 (Nat.le_refl 0)
    rw [splitArguments_eq_map]
    have hparts : type.between 0 (topArrows type) = argumentsFrom 0 0 type :=
      hbetween.trans (attach_nil (argumentsFrom_ne_nil 0 0 type))
    rw [hparts]

/-- Of two arrows that share a blank the left one is read. -/
example : splitArguments "(a -> b) -> -> c".toList = ["(a -> b)".toList, "-> c".toList] := by
  decide

end PackageDocs
