import PackageDocs.Proofs.Signature.Brackets
import PackageDocs.Proofs.Text.Words
import PackageDocs.Signature.Arguments

/-!
# Arguments by recursion

The arguments of a type are collected by a scan of the type with its arrows marked. A
recursion on the type itself finds the same arguments: it looks at the rest of a type and
at the brackets that are open in front of it.

## Main definitions

- `Text.attach`: a text in front of the first of some parts
- `argumentsFrom`: the arguments of the rest of a type

## Main results

- `splitArguments_eq_map`: the recursion agrees with the scan
- `intercalate_splitArguments`: the arguments are put together to the type
-/

namespace PackageDocs

open Text

/-- The text in front of the first of the parts. -/
def Text.attach (front : Text) : List Text → List Text
  | [] => [front]
  | first :: later => (front ++ first) :: later

/-- The arguments of the rest of a type, in front of which the given numbers of
parentheses and braces are open. -/
def argumentsFrom (parens braces : Nat) : Text → List Text
  | ' ' :: '-' :: '>' :: ' ' :: rest =>
    if parens = 0 ∧ braces = 0 then [] :: argumentsFrom parens braces rest
    else attach arrow (argumentsFrom parens braces rest)
  | c :: rest =>
    if c = Scan.arrowMark ∧ parens = 0 ∧ braces = 0 then [] :: argumentsFrom parens braces rest
    else attach [c]
      (argumentsFrom (depthAfter '(' ')' parens c) (depthAfter '{' '}' braces c) rest)
  | [] => [[]]

variable {parens braces : Nat}

namespace Text

theorem attach_ne_nil (front : Text) (parts : List Text) : attach front parts ≠ [] := by
  cases parts <;> simp [attach]

theorem attach_nil {parts : List Text} (h : parts ≠ []) : attach [] parts = parts := by
  cases parts with
  | nil => exact absurd rfl h
  | cons first later => rfl

theorem attach_attach (front next : Text) (parts : List Text) :
    attach front (attach next parts) = attach (front ++ next) parts := by
  cases parts <;> simp [attach]

theorem intercalate_attach (sep front : Text) {parts : List Text} (h : parts ≠ []) :
    sep.intercalate (attach front parts) = front ++ sep.intercalate parts := by
  obtain ⟨first, later, rfl⟩ := List.exists_cons_of_ne_nil h
  rw [attach, intercalate_cons_eq_append_flatMap, intercalate_cons_eq_append_flatMap,
    List.append_assoc]

/-- An empty part in front puts a separator there. -/
theorem intercalate_nil_cons (sep : Text) {parts : List Text} (h : parts ≠ []) :
    sep.intercalate ([] :: parts) = sep ++ sep.intercalate parts := by
  rw [List.intercalate_cons_of_ne_nil h]
  rfl

end Text

theorem unmarkArrows_append (s t : Text) :
    unmarkArrows (s ++ t) = unmarkArrows s ++ unmarkArrows t :=
  List.flatMap_append

theorem unmarkArrows_arrow_append (t : Text) :
    unmarkArrows (arrow ++ t) = arrow ++ unmarkArrows t :=
  unmarkArrows_append arrow t

theorem unmarkArrows_cons_of_ne {c : Char} (h : c ≠ Scan.arrowMark) (t : Text) :
    unmarkArrows (c :: t) = c :: unmarkArrows t := by
  show (if c = Scan.arrowMark then arrow else [c]) ++ unmarkArrows t = c :: unmarkArrows t
  rw [if_neg h]
  rfl

theorem unmarkArrows_of_not_mem {t : Text} (h : Scan.arrowMark ∉ t) : unmarkArrows t = t := by
  induction t with
  | nil => rfl
  | cons c t ih =>
    rw [List.mem_cons, not_or] at h
    rw [unmarkArrows_cons_of_ne fun hc => h.1 hc.symm, ih h.2]

theorem arrowMark_not_mem_unmarkArrows (t : Text) : Scan.arrowMark ∉ unmarkArrows t := by
  intro h
  obtain ⟨c, -, hc⟩ := List.mem_flatMap.1 h
  split at hc
  · exact absurd hc (by decide)
  · next hne => exact hne (List.mem_singleton.1 hc).symm

theorem map_attach_unmarkArrows (front : Text) (parts : List Text) :
    (attach front parts).map unmarkArrows =
      attach (unmarkArrows front) (parts.map unmarkArrows) := by
  cases parts with
  | nil => rfl
  | cons first later =>
    rw [attach, List.map_cons, unmarkArrows_append]
    rfl

theorem argumentsFrom_ne_nil (parens braces : Nat) (t : Text) :
    argumentsFrom parens braces t ≠ [] := by
  unfold argumentsFrom
  split
  · split
    · simp
    · exact attach_ne_nil _ _
  · split
    · simp
    · exact attach_ne_nil _ _
  · simp

theorem map_argumentsFrom_ne_nil (parens braces : Nat) (t : Text) :
    (argumentsFrom parens braces t).map unmarkArrows ≠ [] := by
  simpa using argumentsFrom_ne_nil parens braces t

/-- A mark outside brackets closes the chunk; every other character joins it. -/
theorem readArgument_eq (s : Scan) (hparens : s.parens = parens) (hbraces : s.braces = braces)
    (c : Char) :
    s.readArgument c =
      if c = Scan.arrowMark ∧ parens = 0 ∧ braces = 0 then s.close else s.read c := by
  have htop : s.atTop = true ↔ parens = 0 ∧ braces = 0 := by
    rw [Scan.atTop, hparens, hbraces]
    simp
  simp only [Scan.readArgument, htop]

/-- Closing the chunk puts an empty argument in front of the others. -/
theorem map_chunks_close (s : Scan) {parts : List Text} (h : parts ≠ []) :
    s.close.chunks.map unmarkArrows ++ attach (unmarkArrows s.close.current) parts =
      s.chunks.map unmarkArrows ++ attach (unmarkArrows s.current) ([] :: parts) := by
  show (s.chunks ++ [s.current]).map unmarkArrows ++ attach [] parts =
    s.chunks.map unmarkArrows ++ (unmarkArrows s.current ++ []) :: parts
  rw [attach_nil h, List.map_append, List.append_assoc, List.append_nil]
  rfl

/-- A character in the chunk stands in front of the first argument. -/
theorem map_chunks_read (s : Scan) (c : Char) (parts : List Text) :
    (s.read c).chunks.map unmarkArrows ++ attach (unmarkArrows (s.read c).current) parts =
      s.chunks.map unmarkArrows ++
        attach (unmarkArrows s.current) (attach (unmarkArrows [c]) parts) := by
  show s.chunks.map unmarkArrows ++ attach (unmarkArrows (s.current ++ [c])) parts = _
  rw [attach_attach, unmarkArrows_append]

/-- The recursion on the text agrees with the scan of the marked text. -/
theorem map_chunks_run_markArrows (s : Scan) (hparens : s.parens = parens)
    (hbraces : s.braces = braces) (t : Text) :
    (s.run .arguments (markArrows t)).close.chunks.map unmarkArrows =
      s.chunks.map unmarkArrows ++
        attach (unmarkArrows s.current) ((argumentsFrom parens braces t).map unmarkArrows) := by
  -- From any state: the closed chunks stay, the current one joins the first argument.
  induction t using markArrows.induct generalizing s parens braces with
  | case1 rest ih =>
    show ((s.readArgument Scan.arrowMark).run .arguments (markArrows rest)).close.chunks.map _ = _
    rw [readArgument_eq s hparens hbraces, argumentsFrom]
    by_cases htop : parens = 0 ∧ braces = 0
    · rw [if_pos ⟨rfl, htop⟩, if_pos htop, ih s.close hparens hbraces,
        map_chunks_close s (map_argumentsFrom_ne_nil _ _ _)]
      rfl
    · rw [if_neg fun h => htop h.2, if_neg htop, ih (s.read Scan.arrowMark) hparens hbraces,
        map_chunks_read, map_attach_unmarkArrows]
      rfl
  | case2 c rest hnot ih =>
    rw [markArrows.eq_2 c rest hnot, argumentsFrom.eq_2 parens braces c rest hnot]
    show ((s.readArgument c).run .arguments (markArrows rest)).close.chunks.map _ = _
    rw [readArgument_eq s hparens hbraces]
    by_cases hmark : c = Scan.arrowMark ∧ parens = 0 ∧ braces = 0
    · rw [if_pos hmark, if_pos hmark, ih s.close hparens hbraces,
        map_chunks_close s (map_argumentsFrom_ne_nil _ _ _)]
      rfl
    · have hreadParens : (s.read c).parens = (depthAfter '(' ')' parens c : Nat) := by
        rw [← Scan.parensAfter_natCast, ← hparens]
        rfl
      have hreadBraces : (s.read c).braces = (depthAfter '{' '}' braces c : Nat) := by
        rw [← Scan.bracesAfter_natCast, ← hbraces]
        rfl
      rw [if_neg hmark, if_neg hmark, ih (s.read c) hreadParens hreadBraces, map_chunks_read,
        map_attach_unmarkArrows]
  | case3 =>
    show (s.chunks ++ [s.current]).map unmarkArrows = _
    rw [List.map_append]
    show _ = s.chunks.map unmarkArrows ++ [unmarkArrows s.current ++ []]
    rw [List.append_nil]
    rfl

theorem splitArguments_eq_map (type : Text) :
    splitArguments type = (argumentsFrom 0 0 type).map unmarkArrows := by
  have hrun := @map_chunks_run_markArrows 0 0 Scan.fresh rfl rfl type
  rw [splitArguments, hrun]
  exact attach_nil (map_argumentsFrom_ne_nil 0 0 type)

theorem splitArguments_ne_nil (type : Text) : splitArguments type ≠ [] := by
  rw [splitArguments_eq_map]
  exact map_argumentsFrom_ne_nil 0 0 type

theorem intercalate_map_argumentsFrom (t : Text) :
    arrow.intercalate ((argumentsFrom parens braces t).map unmarkArrows) = unmarkArrows t := by
  induction t using markArrows.induct generalizing parens braces with
  | case1 rest ih =>
    rw [argumentsFrom]
    show _ = unmarkArrows (arrow ++ rest)
    rw [unmarkArrows_arrow_append]
    by_cases htop : parens = 0 ∧ braces = 0
    · rw [if_pos htop, List.map_cons]
      show arrow.intercalate ([] :: _) = _
      rw [intercalate_nil_cons _ (map_argumentsFrom_ne_nil _ _ _), ih]
    · rw [if_neg htop, map_attach_unmarkArrows,
        intercalate_attach _ _ (map_argumentsFrom_ne_nil _ _ _), ih]
      rfl
  | case2 c rest hnot ih =>
    rw [argumentsFrom.eq_2 parens braces c rest hnot]
    show _ = unmarkArrows ([c] ++ rest)
    rw [unmarkArrows_append]
    by_cases hmark : c = Scan.arrowMark ∧ parens = 0 ∧ braces = 0
    · rw [if_pos hmark, List.map_cons]
      show arrow.intercalate ([] :: _) = _
      rw [intercalate_nil_cons _ (map_argumentsFrom_ne_nil _ _ _), ih, hmark.1]
      rfl
    · rw [if_neg hmark, map_attach_unmarkArrows,
        intercalate_attach _ _ (map_argumentsFrom_ne_nil _ _ _), ih]
  | case3 => rfl

/-- Put together again, the arguments are the type with every mark spelled out. -/
theorem intercalate_splitArguments (type : Text) :
    arrow.intercalate (splitArguments type) = unmarkArrows type := by
  rw [splitArguments_eq_map, intercalate_map_argumentsFrom]

theorem intercalate_splitArguments_of_not_mem {type : Text} (h : Scan.arrowMark ∉ type) :
    arrow.intercalate (splitArguments type) = type := by
  rw [intercalate_splitArguments, unmarkArrows_of_not_mem h]

end PackageDocs
