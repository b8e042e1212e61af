import PackageDocs.Proofs.Json.Paths

/-!
# Written paths

Messages write the path to a value as text: a key follows its dot, a position stands in
brackets. Such a text can be read again, so it leads to the value without anything else
being known about it.

## Main definitions

- `Json.readPath?`: the steps that a text writes
- `Json.resolve?`: the part of a value that a written path leads to
- `PathStep.IsPlain`: a step whose key can be told from what follows it

## Main results

- `Json.readPath?_flatMap_text`: written steps read back
- `Json.resolve?_flatMap_text`: a written path leads where its steps lead
-/

namespace PackageDocs

/-- The characters of plain keys. Dots and brackets start a further step, and a colon ends
the path. -/
def PathStep.isKeyChar (c : Char) : Bool :=
  c != '.' && c != '[' && c != ':'

/-- The key of the step, if it has one, ends where a further step starts. -/
def PathStep.IsPlain : PathStep → Prop
  | .key name => ∀ c ∈ name, isKeyChar c = true
  | .index _ => True

instance : DecidablePred PathStep.IsPlain
  | .key name => List.decidableBAll _ name
  | .index _ => isTrue trivial

open PathStep

namespace Json

/-- The steps that the text writes, if it writes a path. -/
def readPath? : Text → Option (List PathStep)
  | [] => some []
  | '.' :: rest =>
    (readPath? (rest.dropWhile isKeyChar)).map (.key (rest.takeWhile isKeyChar) :: ·)
  | '[' :: rest =>
    let behind := rest.dropWhile Char.isDigit
    if behind.head? = some ']' then
      let position := Nat.ofDigitChars 10 (rest.takeWhile Char.isDigit) 0
      (readPath? behind.tail).map (.index position :: ·)
    else none
  | _ => none
termination_by t => t.length
decreasing_by
  · have hle := (List.dropWhile_sublist isKeyChar (l := rest)).length_le
    simp only [List.length_cons]
    omega
  · have hle := (List.dropWhile_sublist Char.isDigit (l := rest)).length_le
    simp only [List.length_tail, List.length_cons]
    omega

/-- The part of the value that the written path leads to. -/
def resolve? (path : Text) (data : Json) : Option Json :=
  (readPath? path).bind fun steps => data.at? steps

/-- What a written path goes on with: nothing, or the sign in front of a further step. -/
def StartsStep (t : Text) : Prop :=
  ∀ c ∈ t.head?, isKeyChar c = false

theorem startsStep_flatMap_text (steps : List PathStep) :
    StartsStep (steps.flatMap PathStep.text) := by
  intro c hc
  cases steps with
  | nil => simp at hc
  | cons step steps =>
    cases step with
    | key name =>
      obtain rfl : '.' = c := by simpa [PathStep.text] using hc
      rfl
    | index i =>
      obtain rfl : '[' = c := by simpa [PathStep.text] using hc
      rfl

theorem readPath?_key {name rest : Text} (hname : (PathStep.key name).IsPlain)
    (hrest : StartsStep rest) :
    readPath? ('.' :: (name ++ rest)) = (readPath? rest).map (.key name :: ·) := by
  have htake : rest.takeWhile isKeyChar = [] := by
    cases rest with
    | nil => rfl
    | cons c rest => rw [List.takeWhile_cons, hrest c rfl]; rfl
  have hdrop : rest.dropWhile isKeyChar = rest := by
    cases rest with
    | nil => rfl
    | cons c rest => rw [List.dropWhile_cons, hrest c rfl]; rfl
  rw [readPath?, List.takeWhile_append_of_pos hname, List.dropWhile_append_of_pos hname, htake,
    hdrop, List.append_nil]

theorem readPath?_index (i : Nat) (rest : Text) :
    readPath? ('[' :: (Text.ofNat i ++ ']' :: rest)) = (readPath? rest).map (.index i :: ·) := by
  have hdigits : ∀ c ∈ Text.ofNat i, c.isDigit = true := fun c hc =>
    Nat.isDigit_of_mem_toDigits (by decide) (by decide) hc
  have hvalue : Nat.ofDigitChars 10 (Text.ofNat i) 0 = i := Nat.ofDigitChars_ten_toDigits
  have hdrop : (Text.ofNat i ++ ']' :: rest).dropWhile Char.isDigit = ']' :: rest := by
    rw [List.dropWhile_append_of_pos hdigits]
    rfl
  have htake : (Text.ofNat i ++ ']' :: rest).takeWhile Char.isDigit = Text.ofNat i := by
    rw [List.takeWhile_append_of_pos hdigits]
    exact List.append_nil _
  rw [readPath?, hdrop, htake, hvalue, if_pos List.head?_cons, List.tail_cons]

/-- Written steps read back. -/
theorem readPath?_flatMap_text {steps : List PathStep} (h : ∀ step ∈ steps, step.IsPlain) :
    readPath? (steps.flatMap PathStep.text) = some steps := by
  induction steps with
  | nil => rw [List.flatMap_nil, readPath?]
  | cons step steps ih =>
    have hsteps := ih fun other hother => h other (List.mem_cons_of_mem step hother)
    rw [List.flatMap_cons]
    cases step with
    | key name =>
      have hname := h (.key name) List.mem_cons_self
      rw [PathStep.text, List.cons_append, readPath?_key hname (startsStep_flatMap_text steps),
        hsteps]
      rfl
    | index i =>
      rw [PathStep.text, List.cons_append, List.cons_append, List.append_assoc,
        List.singleton_append, readPath?_index, hsteps]
      rfl

/-- A written path leads where its steps lead. -/
theorem resolve?_flatMap_text {steps : List PathStep} (h : ∀ step ∈ steps, step.IsPlain)
    (data : Json) : resolve? (steps.flatMap PathStep.text) data = data.at? steps := by
  rw [resolve?, readPath?_flatMap_text h, Option.bind_some]

/-- A written path ends before the colon. -/
theorem colon_not_mem_flatMap_text {steps : List PathStep} (h : ∀ step ∈ steps, step.IsPlain) :
    ':' ∉ steps.flatMap PathStep.text := by
  rw [List.mem_flatMap]
  rintro ⟨step, hstep, hmem⟩
  cases step with
  | key name =>
    have hname : ':' ∈ name := by simpa [PathStep.text] using hmem
    exact absurd (h (.key name) hstep ':' hname) (by decide)
  | index i =>
    have hdigits : ':' ∈ Text.ofNat i := by simpa [PathStep.text] using hmem
    exact absurd (Nat.isDigit_of_mem_toDigits (by decide) (by decide) hdigits) (by decide)

end Json

end PackageDocs
