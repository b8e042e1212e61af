import PackageDocs.Proofs.Signature.Brackets

/-!
# Operations in any order

A scan may be driven by hand: chunks are closed at any time, and every character is read
under a rule of its own. Whatever the order, the depths count the characters fed, the
chunks that are closed stay as they are, and no character is lost but the arrow marks that
end an argument.

## Main definitions

- `Scan.Operation`, `Scan.performAll`: the operations, and many of them in a row
- `Scan.fed`, `Scan.keptFrom`: the characters fed to a scan, and those that it keeps
- `Scan.collected`: the characters that a scan holds

## Main results

- `Scan.step_cases`: what one character does
- `Scan.performAll_invariant`: what holds after any operations
-/

namespace PackageDocs

open Text

namespace Scan

/-- The chunk ends, or a character is read under a rule. -/
inductive Operation where
  | close
  | read (rule : Rule) (c : Char)
  deriving Repr, DecidableEq

/-- The characters that the operations feed. -/
def fed : List Operation → Text
  | [] => []
  | .close :: ops => fed ops
  | .read _ c :: ops => c :: fed ops

/-- The characters that stay, if so many parentheses and braces are open before them: an
arrow mark that is read as an argument outside all brackets does not. -/
def keptFrom (parens braces : Nat) : List Operation → Text
  | [] => []
  | .close :: ops => keptFrom parens braces ops
  | .read rule c :: ops =>
    let rest := keptFrom (depthAfter '(' ')' parens c) (depthAfter '{' '}' braces c) ops
    if rule = .arguments ∧ c = arrowMark ∧ parens = 0 ∧ braces = 0 then rest else c :: rest

def perform (s : Scan) : Operation → Scan
  | .close => s.close
  | .read rule c => step rule s c

def performAll (s : Scan) (ops : List Operation) : Scan :=
  ops.foldl perform s

/-- The characters of all chunks, the current one included. -/
def collected (s : Scan) : Text :=
  s.chunks.flatten ++ s.current

variable {s : Scan} {parens braces : Nat}

theorem collected_close (s : Scan) : s.close.collected = s.collected := by
  simp [close, collected]

theorem collected_read (s : Scan) (c : Char) : (s.read c).collected = s.collected ++ [c] := by
  simp [read, collected]

-- ═════════════════════════════════════════════════════════════════════════════
-- One operation
-- ═════════════════════════════════════════════════════════════════════════════

/-- The mark between two arguments is dropped and ends the chunk. Every other character is
read; the chunk may end before it, or behind it for good. -/
theorem step_cases (rule : Rule) (s : Scan) (c : Char) :
    (rule = .arguments ∧ c = arrowMark ∧ s.atTop = true) ∧ step rule s c = s.close ∨
      ¬ (rule = .arguments ∧ c = arrowMark ∧ s.atTop = true) ∧
        (step rule s c = s.read c ∨ step rule s c = s.close.read c ∨
          step rule s c = { (s.read c).close with finished := true }) := by
  cases rule with
  | whole => exact .inr ⟨by simp, .inl rfl⟩
  | arguments =>
    by_cases h : c = arrowMark ∧ s.atTop = true
    · exact .inl ⟨⟨rfl, h⟩, if_pos h⟩
    · exact .inr ⟨fun hmark => h hmark.2, .inl (if_neg h)⟩
  | record =>
    refine .inr ⟨by simp, ?_⟩
    show readRecord s c = _ ∨ readRecord s c = _ ∨ readRecord s c = _
    unfold readRecord
    split
    · exact .inl rfl
    · split
      · exact .inr (.inl rfl)
      · split
        · exact .inr (.inr rfl)
        · exact .inl rfl

theorem chunks_prefix_perform (s : Scan) (op : Operation) :
    s.chunks <+: (s.perform op).chunks := by
  cases op with
  | close => exact List.prefix_append ..
  | read rule c =>
    rcases step_cases rule s c with ⟨-, h⟩ | ⟨-, h | h | h⟩
    · rw [perform, h]
      exact List.prefix_append ..
    · rw [perform, h]
      exact List.prefix_rfl
    · rw [perform, h]
      exact List.prefix_append ..
    · rw [perform, h]
      exact List.prefix_append ..

theorem finished_perform (op : Operation) (hs : s.finished = true) :
    (s.perform op).finished = true := by
  cases op with
  | close => exact hs
  | read rule c =>
    rcases step_cases rule s c with ⟨-, h⟩ | ⟨-, h | h | h⟩
    · rw [perform, h]
      exact hs
    · rw [perform, h]
      exact hs
    · rw [perform, h]
      exact hs
    · rw [perform, h]

/-- So many parentheses and braces are open. -/
structure HasDepths (s : Scan) (parens braces : Nat) : Prop where
  parens : s.parens = parens
  braces : s.braces = braces

theorem HasDepths.atTop_iff (h : s.HasDepths parens braces) :
    s.atTop = true ↔ parens = 0 ∧ braces = 0 := by
  rw [atTop, h.parens, h.braces]
  simp

theorem HasDepths.perform (h : s.HasDepths parens braces) (op : Operation) :
    (s.perform op).HasDepths (depthFrom '(' ')' parens (fed [op]))
      (depthFrom '{' '}' braces (fed [op])) := by
  cases op with
  | close => exact ⟨h.parens, h.braces⟩
  | read rule c =>
    obtain ⟨hparens, hbraces⟩ := step_depths rule s c
    constructor
    · rw [Scan.perform, hparens, h.parens, parensAfter_natCast]
      rfl
    · rw [Scan.perform, hbraces, h.braces, bracesAfter_natCast]
      rfl

theorem HasDepths.collected_perform (h : s.HasDepths parens braces) (op : Operation) :
    (s.perform op).collected = s.collected ++ keptFrom parens braces [op] := by
  cases op with
  | close =>
    rw [Scan.perform, collected_close, keptFrom, keptFrom, List.append_nil]
  | read rule c =>
    have hmark : (rule = .arguments ∧ c = arrowMark ∧ s.atTop = true) ↔
        rule = .arguments ∧ c = arrowMark ∧ parens = 0 ∧ braces = 0 := by
      rw [h.atTop_iff]
    rw [Scan.perform, keptFrom, keptFrom]
    rcases step_cases rule s c with ⟨hdrop, hstep⟩ | ⟨hkeep, hstep⟩
    · rw [hstep, collected_close, if_pos (hmark.1 hdrop), List.append_nil]
    · rw [if_neg (mt hmark.2 hkeep)]
      rcases hstep with hstep | hstep | hstep
      · rw [hstep, collected_read]
      · rw [hstep, collected_read, collected_close]
      · rw [hstep]
        exact (collected_close (s.read c)).trans (collected_read s c)

-- ═════════════════════════════════════════════════════════════════════════════
-- Many operations
-- ═════════════════════════════════════════════════════════════════════════════

theorem performAll_append (s : Scan) (before after : List Operation) :
    s.performAll (before ++ after) = (s.performAll before).performAll after :=
  List.foldl_append

theorem fed_cons (op : Operation) (ops : List Operation) : fed (op :: ops) = fed [op] ++ fed ops := by
  cases op <;> rfl

theorem keptFrom_cons (parens braces : Nat) (op : Operation) (ops : List Operation) :
    keptFrom parens braces (op :: ops) = keptFrom parens braces [op] ++
      keptFrom (depthFrom '(' ')' parens (fed [op])) (depthFrom '{' '}' braces (fed [op])) ops := by
  cases op with
  | close => rfl
  | read rule c =>
    rw [keptFrom, keptFrom]
    split <;> rfl

theorem chunks_prefix_performAll (s : Scan) (ops : List Operation) :
    s.chunks <+: (s.performAll ops).chunks := by
  induction ops generalizing s with
  | nil => exact List.prefix_rfl
  | cons op ops ih => exact (s.chunks_prefix_perform op).trans (ih (s.perform op))

theorem finished_performAll (ops : List Operation) (hs : s.finished = true) :
    (s.performAll ops).finished = true := by
  induction ops generalizing s with
  | nil => exact hs
  | cons op ops ih => exact ih (finished_perform op hs)

theorem HasDepths.performAll (h : s.HasDepths parens braces) (ops : List Operation) :
    (s.performAll ops).HasDepths (depthFrom '(' ')' parens (fed ops))
      (depthFrom '{' '}' braces (fed ops)) := by
  induction ops generalizing s parens braces with
  | nil => exact h
  | cons op ops ih =>
    rw [fed_cons, depthFrom_append, depthFrom_append]
    exact ih (h.perform op)

theorem HasDepths.collected_performAll (h : s.HasDepths parens braces) (ops : List Operation) :
    (s.performAll ops).collected = s.collected ++ keptFrom parens braces ops := by
  induction ops generalizing s parens braces with
  | nil => exact (List.append_nil _).symm
  | cons op ops ih =>
    have hop := h.collected_perform op
    have hrest := ih (h.perform op)
    rw [keptFrom_cons, ← List.append_assoc, ← hop]
    exact hrest

/-- A scan whose depths are not below zero has so many open brackets. -/
theorem hasDepths_toNat (hparens : 0 ≤ s.parens) (hbraces : 0 ≤ s.braces) :
    s.HasDepths s.parens.toNat s.braces.toNat :=
  ⟨(Int.toNat_of_nonneg hparens).symm, (Int.toNat_of_nonneg hbraces).symm⟩

/-- **Any operations in any order.** From a state with no depth below zero none ever falls
below it. A scan collects the characters fed to it, less the arrow marks that end an
argument; the chunks that are closed stay, and what is finished stays finished. The depths
behind the operations come from the depths before them and the characters fed, so two
scans that are fed alike have the same depths, whatever the rules and wherever the chunks
end. -/
theorem performAll_invariant (s : Scan) (hparens : 0 ≤ s.parens) (hbraces : 0 ≤ s.braces)
    (ops : List Operation) :
    (0 ≤ (s.performAll ops).parens ∧ 0 ≤ (s.performAll ops).braces) ∧
      (s.performAll ops).collected =
        s.collected ++ keptFrom s.parens.toNat s.braces.toNat ops ∧
      (∀ before after, ops = before ++ after →
        (s.performAll before).chunks <+: (s.performAll ops).chunks ∧
          ((s.performAll before).finished = true → (s.performAll ops).finished = true)) ∧
      ((s.performAll ops).parens = depthFrom '(' ')' s.parens.toNat (fed ops) ∧
        (s.performAll ops).braces = depthFrom '{' '}' s.braces.toNat (fed ops)) ∧
      ∀ (other : Scan) (others : List Operation),
        other.parens = s.parens → other.braces = s.braces → fed others = fed ops →
          (other.performAll others).parens = (s.performAll ops).parens ∧
            (other.performAll others).braces = (s.performAll ops).braces := by
  have hdepths := hasDepths_toNat hparens hbraces
  have hafter := hdepths.performAll ops
  refine ⟨⟨?_, ?_⟩, hdepths.collected_performAll ops, ?_, ⟨hafter.parens, hafter.braces⟩, ?_⟩
  · rw [hafter.parens]
    exact Int.natCast_nonneg _
  · rw [hafter.braces]
    exact Int.natCast_nonneg _
  · rintro before after rfl
    rw [performAll_append]
    exact ⟨chunks_prefix_performAll _ after, finished_performAll after⟩
  · intro other others hp hb hfed
    have hother : other.HasDepths s.parens.toNat s.braces.toNat :=
      ⟨hp.trans hdepths.parens, hb.trans hdepths.braces⟩
    have hothers := hother.performAll others
    rw [hfed] at hothers
    exact ⟨hothers.parens.trans hafter.parens.symm, hothers.braces.trans hafter.braces.symm⟩

/-- A scan in the middle of a text: the mark in parentheses stays, the one behind them is
dropped, and a comma opens a chunk that is closed by hand. -/
theorem performAll_invariant_of_mixed :
    let s : Scan := { parens := 1, current := "(a".toList, chunks := ["b".toList] }
    let ops : List Operation := [.read .arguments arrowMark, .close, .read .record ')',
      .read .arguments arrowMark, .read .record '{', .read .record ',', .close]
    (0 ≤ s.parens ∧ 0 ≤ s.braces) ∧
      (s.performAll ops).collected = s.collected ++ ['\x00', ')', '{', ','] ∧
      s.chunks <+: (s.performAll ops).chunks ∧ (s.performAll ops).braces = 1 := by
  intro s ops
  have hparens : 0 ≤ s.parens := by decide
  have hbraces : 0 ≤ s.braces := by decide
  obtain ⟨-, hcollected, hstages, ⟨-, hbraced⟩, -⟩ := s.performAll_invariant hparens hbraces ops
  exact ⟨⟨hparens, hbraces⟩, hcollected, (hstages [] ops rfl).1, hbraced⟩

end Scan

end PackageDocs
