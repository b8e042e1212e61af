import PackageDocs.Signature.Scan

/-!
# Depths of brackets

A scan counts the open brackets of two kinds. Whatever rule it follows, and wherever it
ends its chunks, the two counts depend on the characters alone, and each of them counts
one kind of bracket and stops at zero.

## Main definitions

- `Text.depthAfter`, `Text.depthFrom`: the open brackets of one kind behind a text
- `Text.EndsAtTop`: no bracket is open behind a text

## Main results

- `Scan.step_depths`: one character under any rule
- `Scan.after_natCast`: the counts of a scan are depths
-/

namespace PackageDocs

namespace Text

/-- The number of open brackets of one kind behind one more character; there are never
fewer than none. -/
def depthAfter (opener closer : Char) (depth : Nat) (c : Char) : Nat :=
  if c = opener then depth + 1 else if c = closer then depth - 1 else depth

/-- The number of open brackets of one kind behind the text, when `depth` of them are open
in front of it. -/
def depthFrom (opener closer : Char) (depth : Nat) (t : Text) : Nat :=
  t.foldl (depthAfter opener closer) depth

/-- No parenthesis and no brace is open behind the text. -/
def EndsAtTop (t : Text) : Prop :=
  depthFrom '(' ')' 0 t = 0 ∧ depthFrom '{' '}' 0 t = 0

instance : DecidablePred EndsAtTop := fun t =>
  inferInstanceAs (Decidable (depthFrom '(' ')' 0 t = 0 ∧ depthFrom '{' '}' 0 t = 0))

variable {opener closer : Char} {depth : Nat}

@[simp]
theorem depthFrom_nil : depthFrom opener closer depth [] = depth := rfl

@[simp]
theorem depthFrom_cons (c : Char) (t : Text) :
    depthFrom opener closer depth (c :: t) =
      depthFrom opener closer (depthAfter opener closer depth c) t := rfl

theorem depthFrom_append (s t : Text) :
    depthFrom opener closer depth (s ++ t) =
      depthFrom opener closer (depthFrom opener closer depth s) t :=
  List.foldl_append

/-- A text without brackets leaves the depth as it is. -/
theorem depthFrom_of_not_mem {t : Text} (hopener : opener ∉ t) (hcloser : closer ∉ t) :
    depthFrom opener closer depth t = depth := by
  induction t with
  | nil => rfl
  | cons c t ih =>
    rw [List.mem_cons, not_or] at hopener hcloser
    have hc : depthAfter opener closer depth c = depth := by
      rw [depthAfter, if_neg fun h => hopener.1 h.symm, if_neg fun h => hcloser.1 h.symm]
    rw [depthFrom_cons, hc, ih hopener.2 hcloser.2]

end Text

open Text

namespace Scan

theorem after_natCast (opener closer : Char) (depth : Nat) (c : Char) :
    (if c = opener then (depth : Int) + 1 else if c = closer then closed depth else depth) =
      (depthAfter opener closer depth c : Nat) := by
  unfold depthAfter
  split
  · rfl
  · split
    · unfold closed
      split <;> omega
    · rfl

theorem parensAfter_natCast (depth : Nat) (c : Char) :
    parensAfter depth c = (depthAfter '(' ')' depth c : Nat) :=
  after_natCast '(' ')' depth c

theorem bracesAfter_natCast (depth : Nat) (c : Char) :
    bracesAfter depth c = (depthAfter '{' '}' depth c : Nat) :=
  after_natCast '{' '}' depth c

/-- Every rule counts brackets alike. -/
theorem step_depths (rule : Rule) (s : Scan) (c : Char) :
    (step rule s c).parens = parensAfter s.parens c ∧
      (step rule s c).braces = bracesAfter s.braces c := by
  cases rule with
  | whole => exact ⟨rfl, rfl⟩
  | arguments =>
    show (readArgument s c).parens = _ ∧ (readArgument s c).braces = _
    unfold readArgument
    split
    · next h =>
      -- The mark is no bracket.
      rw [h.1]
      exact ⟨rfl, rfl⟩
    · exact ⟨rfl, rfl⟩
  | record =>
    show (readRecord s c).parens = _ ∧ (readRecord s c).braces = _
    unfold readRecord
    split
    · exact ⟨rfl, rfl⟩
    · split
      · exact ⟨rfl, rfl⟩
      · split <;> exact ⟨rfl, rfl⟩

end Scan

end PackageDocs
