import Mathlib.Data.List.TakeWhile
import PackageDocs.Proofs.Signature.Glyphs
import PackageDocs.Proofs.Signature.Identifiers

/-!
# Two readings of a type

The raw words of a type say at which offsets of the normalized type a name refers to the
page, and the pieces of the normalized type are searched for identifiers at these offsets.
Both readings count the same characters: no identifier reaches from one word or one piece
into the next, so a name that a word refers to is found again where it was counted, and
nothing else is found there. The two give what the words give one by one.

## Main definitions

- `Text.Read`: a text cut into identifiers and the characters between them
- `Text.glyphsAt`: what a text shows when the identifiers at marked offsets are names
- `Colouring.Shows`: a text in colour was put at the end

## Main results

- `Scope.glyphsAt_referenceOffsets`: the counted offsets mark the names of the words
- `Document.shown_referring`: a piece without punctuation in colour
- `Colouring.Shows.parts`: pieces in colour with the punctuation between them
- `Scope.typeDocument_eq_ofGlyphs`: the two readings together
-/

namespace PackageDocs

open Scope (isNameStart isNameChar)

namespace Text

-- ═════════════════════════════════════════════════════════════════════════════
-- Identifiers of a text
-- ═════════════════════════════════════════════════════════════════════════════

/-- A text read from the left: identifiers, each as long as it goes, and the characters
between them. -/
inductive Read : Text → Prop
  | nil : Read []
  | char {c : Char} {rest : Text} (hc : isNameStart c = false) (hrest : Read rest) :
      Read (c :: rest)
  | name {c : Char} {run rest : Text} (hc : isNameStart c = true)
      (hrun : ∀ d ∈ run, isNameChar d = true) (hend : ∀ d ∈ rest.head?, isNameChar d = false)
      (hrest : Read rest) : Read (c :: (run ++ rest))

/-- Every text can be read. -/
theorem read (t : Text) : Read t := by
  induction hn : t.length using Nat.strong_induction_on generalizing t with
  | _ n ih =>
    cases t with
    | nil => exact .nil
    | cons c rest =>
      subst hn
      cases hc : isNameStart c with
      | false => exact .char hc (ih _ (Nat.lt_succ_self _) rest rfl)
      | true =>
        have hlater : (rest.dropWhile isNameChar).length < (c :: rest).length :=
          Nat.lt_succ_of_le (List.length_dropWhile_le isNameChar rest)
        have hread : Read (c :: (rest.takeWhile isNameChar ++ rest.dropWhile isNameChar)) := by
          refine .name hc (List.all_eq_true.1 List.all_takeWhile) ?_ (ih _ hlater _ rfl)
          intro d hd
          have hhead := List.head?_dropWhile_not isNameChar rest
          rw [hd] at hhead
          simpa using hhead
        rwa [List.takeWhile_append_dropWhile] at hread

variable {c : Char} {run rest s t : Text} {offset : Nat}

theorem takeWhile_run (hrun : ∀ d ∈ run, isNameChar d = true)
    (hend : ∀ d ∈ rest.head?, isNameChar d = false) :
    (run ++ rest).takeWhile isNameChar = run := by
  rw [List.takeWhile_append_of_pos hrun]
  cases rest with
  | nil => exact List.append_nil _
  | cons d rest => rw [List.takeWhile_cons_of_neg (by simp [hend d rfl]), List.append_nil]

theorem identifiersFrom_char (hc : isNameStart c = false) :
    identifiersFrom offset 0 (c :: rest) = identifiersFrom (offset + 1) 0 rest := by
  simp [identifiersFrom, hc]

/-- Characters of an identifier that has been found are left behind. -/
theorem identifiersFrom_append (offset : Nat) (run rest : Text) :
    identifiersFrom offset run.length (run ++ rest) =
      identifiersFrom (offset + run.length) 0 rest := by
  induction run generalizing offset with
  | nil => rfl
  | cons c run ih =>
    rw [List.cons_append, List.length_cons, identifiersFrom, ih]
    congr 1
    omega

theorem identifiersFrom_name (hc : isNameStart c = true)
    (hrun : ∀ d ∈ run, isNameChar d = true) (hend : ∀ d ∈ rest.head?, isNameChar d = false) :
    identifiersFrom offset 0 (c :: (run ++ rest)) =
      (offset, c :: run) :: identifiersFrom (offset + 1 + run.length) 0 rest := by
  rw [identifiersFrom]
  simp only [hc, if_true, takeWhile_run hrun hend, identifiersFrom_append]

-- ═════════════════════════════════════════════════════════════════════════════
-- Marked offsets
-- ═════════════════════════════════════════════════════════════════════════════

/-- What a text that starts at `offset` shows, when its identifiers at the marked offsets
are names. -/
def glyphsAt (marked : Nat → Bool) (offset : Nat) : Text → List Glyph
  | [] => []
  | c :: rest =>
    if isNameStart c then
      let run := rest.takeWhile isNameChar
      (if marked offset then [.name (c :: run)] else (c :: run).map .char) ++
        glyphsAt marked (offset + 1 + run.length) (rest.dropWhile isNameChar)
    else .char c :: glyphsAt marked (offset + 1) rest
termination_by t => t.length
decreasing_by
  · exact Nat.lt_succ_of_le (List.length_dropWhile_le isNameChar rest)
  · exact Nat.lt_succ_self _

variable {marked : Nat → Bool}

@[simp] theorem glyphsAt_nil : glyphsAt marked offset [] = [] := by
  rw [glyphsAt]

theorem glyphsAt_char (hc : isNameStart c = false) :
    glyphsAt marked offset (c :: rest) = .char c :: glyphsAt marked (offset + 1) rest := by
  simp [glyphsAt, hc]

theorem glyphsAt_name (hc : isNameStart c = true)
    (hrun : ∀ d ∈ run, isNameChar d = true) (hend : ∀ d ∈ rest.head?, isNameChar d = false) :
    glyphsAt marked offset (c :: (run ++ rest)) =
      (if marked offset then [.name (c :: run)] else (c :: run).map .char) ++
        glyphsAt marked (offset + 1 + run.length) rest := by
  have hdrop : (run ++ rest).dropWhile isNameChar = rest := by
    have hall := List.takeWhile_append_dropWhile (p := isNameChar) (l := run ++ rest)
    rw [takeWhile_run hrun hend] at hall
    exact List.append_cancel_left hall
  rw [glyphsAt]
  simp only [hc, if_true, takeWhile_run hrun hend, hdrop]

/-- Without marks a text shows its characters. -/
theorem glyphsAt_of_unmarked
    (h : ∀ i, offset ≤ i → i < offset + t.length → marked i = false) :
    glyphsAt marked offset t = t.map .char := by
  induction read t generalizing offset with
  | nil => rw [glyphsAt_nil, List.map_nil]
  | char hc _ ih =>
    rw [List.length_cons] at h
    rw [glyphsAt_char hc, ih fun i hlow hhigh => h i (by omega) (by omega), List.map_cons]
  | name hc hrun hend _ ih =>
    rw [List.length_cons, List.length_append] at h
    rw [glyphsAt_name hc hrun hend, h offset (by omega) (by omega),
      ih fun i hlow hhigh => h i (by omega) (by omega), ← List.cons_append, List.map_append]
    rfl

/-- No identifier reaches into a text that does not start with one of its characters. -/
theorem glyphsAt_append (h : ∀ d ∈ t.head?, isNameChar d = false) :
    glyphsAt marked offset (s ++ t) =
      glyphsAt marked offset s ++ glyphsAt marked (offset + s.length) t := by
  induction read s generalizing offset with
  | nil => rw [glyphsAt_nil, List.nil_append, List.nil_append, List.length_nil, Nat.add_zero]
  | char hc _ ih =>
    rw [List.cons_append, glyphsAt_char hc, glyphsAt_char hc, ih, List.cons_append,
      List.length_cons, Nat.add_assoc, Nat.add_comm 1]
  | @name c run rest hc hrun hend _ ih =>
    have hends : ∀ d ∈ (rest ++ t).head?, isNameChar d = false := by
      cases rest with
      | nil => exact h
      | cons d rest => exact hend
    have hlength :
          offset + (c :: (run ++ rest)).length = offset + 1 + run.length + rest.length := by
      rw [List.length_cons, List.length_append]
      omega
    rw [List.cons_append, List.append_assoc, glyphsAt_name hc hrun hends,
      glyphsAt_name hc hrun hend, ih, List.append_assoc, hlength]

/-- Characters that no identifier holds are shown as they are. -/
theorem glyphsAt_append_of_forall (hs : ∀ d ∈ s, isNameChar d = false) (t : Text) :
    glyphsAt marked offset (s ++ t) = s.map .char ++ glyphsAt marked (offset + s.length) t := by
  induction s generalizing offset with
  | nil => rfl
  | cons c s ih =>
    have hc : isNameStart c = false := Scope.isNameStart_eq_false (hs c List.mem_cons_self)
    rw [List.cons_append, glyphsAt_char hc,
      ih fun d hd => hs d (List.mem_cons_of_mem c hd), List.length_cons, Nat.add_assoc,
      Nat.add_comm 1]
    rfl

end Text

open Text

-- ═════════════════════════════════════════════════════════════════════════════
-- The first reading
-- ═════════════════════════════════════════════════════════════════════════════

namespace Scope

variable {scope : Scope} {offset i : Nat} {word : Text} {rest : List Text}

theorem mem_offsetsFrom_cons :
    i ∈ scope.offsetsFrom offset (word :: rest) ↔
      (∃ found, scope.reference? word = some found ∧ i = offset + found.1.length) ∨
        i ∈ scope.offsetsFrom (offset + (Word.dropQualifier word).length + 1) rest := by
  rw [offsetsFrom]
  cases href : scope.reference? word with
  | none => simp
  | some found => simp

theorem le_of_mem_offsetsFrom {words : List Text} (h : i ∈ scope.offsetsFrom offset words) :
    offset ≤ i := by
  induction words generalizing offset with
  | nil => exact absurd h List.not_mem_nil
  | cons word rest ih =>
    rcases mem_offsetsFrom_cons.1 h with ⟨found, -, rfl⟩ | hlater
    · exact Nat.le_add_right _ _
    · have hle := ih hlater
      omega

/-- A word whose name is marked, and nothing else in it, shows that name. -/
theorem glyphsAt_dropQualifier {marked : Nat → Bool}
    (h : ∀ i, offset ≤ i → i < offset + (Word.dropQualifier word).length →
      (marked i = true ↔
        ∃ found, scope.reference? word = some found ∧ i = offset + found.1.length)) :
    glyphsAt marked offset (Word.dropQualifier word) = scope.wordGlyphs word := by
  rw [wordGlyphs]
  cases href : scope.reference? word with
  | none =>
    refine glyphsAt_of_unmarked fun i hlow hhigh => Bool.eq_false_iff.2 fun hi => ?_
    obtain ⟨found, hfound, -⟩ := (h i hlow hhigh).1 hi
    exact absurd (href.symm.trans hfound) (by simp)
  | some found =>
    obtain ⟨before, name, after⟩ := found
    obtain ⟨hrefers, rfl, rfl⟩ := reference?_eq_some_iff.1 href
    have hword := hrefers.openers_append
    have hafter := hrefers.isNameChar_head?
    generalize hbefore : Word.openers (Word.dropQualifier word) = before at *
    generalize (Word.body (Word.dropQualifier word)).drop name.length = after at *
    have hmark : ∀ i, offset ≤ i → i < offset + (Word.dropQualifier word).length →
        (marked i = true ↔ i = offset + before.length) := by
      intro i hlow hhigh
      rw [h i hlow hhigh, href]
      simp
    obtain ⟨c, run, rfl⟩ := List.exists_cons_of_ne_nil hrefers.leads.identifier.ne_nil
    obtain ⟨hfirst, hrun⟩ := hrefers.leads.identifier
    have hc : isNameStart c = true := by simpa [isNameStart] using hfirst
    rw [← hword] at hmark ⊢
    simp only [List.length_append, List.length_cons] at hmark
    have hat : marked (offset + before.length) = true :=
      (hmark _ (by omega) (by omega)).2 rfl
    rw [List.cons_append,
      glyphsAt_append_of_forall fun d hd => isNameChar_of_mem_openers (hbefore ▸ hd),
      glyphsAt_name hc hrun hafter, hat, if_pos rfl, glyphsAt_of_unmarked]
    · rfl
    · intro i hlow hhigh
      refine Bool.eq_false_iff.2 fun hi => ?_
      have heq := (hmark i (by omega) (by omega)).1 hi
      omega

/-- In front of other words, too, a word shows the name it refers to: the names of the
others stand behind it. -/
theorem glyphsAt_firstWord {marked : Nat → Bool}
    (h : ∀ i, offset ≤ i → (marked i = true ↔ i ∈ scope.offsetsFrom offset (word :: rest))) :
    glyphsAt marked offset (Word.dropQualifier word) = scope.wordGlyphs word := by
  refine glyphsAt_dropQualifier fun i hlow hhigh => ?_
  rw [h i hlow, mem_offsetsFrom_cons]
  refine or_iff_left fun hlater => ?_
  have hle := le_of_mem_offsetsFrom hlater
  omega

/-- Behind a word only the names of the other words are counted. -/
theorem mem_offsetsFrom_of_le (h : offset + (Word.dropQualifier word).length + 1 ≤ i) :
    i ∈ scope.offsetsFrom offset (word :: rest) ↔
      i ∈ scope.offsetsFrom (offset + (Word.dropQualifier word).length + 1) rest := by
  rw [mem_offsetsFrom_cons]
  refine or_iff_right ?_
  rintro ⟨⟨before, name, after⟩, href, rfl⟩
  obtain ⟨-, hbefore, -⟩ := reference?_eq_some_iff.1 href
  have hle : before.length ≤ (Word.dropQualifier word).length := by
    rw [hbefore]
    exact (List.takeWhile_prefix Word.isOpener).length_le
  simp only at h
  omega

/-- Words that are laid out from an offset on show the names that are counted there. -/
theorem glyphsAt_words {marked : Nat → Bool} (first : Text) (rest : List Text)
    (h : ∀ i, offset ≤ i → (marked i = true ↔ i ∈ scope.offsetsFrom offset (first :: rest))) :
    glyphsAt marked offset ([' '].intercalate ((first :: rest).map Word.dropQualifier)) =
      [Glyph.char ' '].intercalate ((first :: rest).map scope.wordGlyphs) := by
  have hfirst := glyphsAt_firstWord h
  induction rest generalizing offset first with
  | nil =>
    show glyphsAt marked offset (Word.dropQualifier first ++ []) = scope.wordGlyphs first ++ []
    rw [List.append_nil, List.append_nil, hfirst]
  | cons second rest ih =>
    have hlater : ∀ i, offset + (Word.dropQualifier first).length + 1 ≤ i →
        (marked i = true ↔
          i ∈ scope.offsetsFrom (offset + (Word.dropQualifier first).length + 1)
            (second :: rest)) :=
      fun i hlow => (h i (by omega)).trans (mem_offsetsFrom_of_le hlow)
    have hrest := ih second hlater (glyphsAt_firstWord hlater)
    rw [List.map_cons, List.intercalate_cons_of_ne_nil (by simp), List.append_assoc,
      glyphsAt_append (by simp; decide), hfirst, List.singleton_append,
      glyphsAt_char (by decide), hrest, List.map_cons (l := second :: rest),
      List.intercalate_cons_of_ne_nil (by simp), List.append_assoc]
    rfl

/-- **The counted offsets mark the names of the words**, and nothing else. -/
theorem glyphsAt_referenceOffsets (scope : Scope) (type : Text) :
    glyphsAt (scope.referenceOffsets type).contains 0 (normalizeType type) =
      scope.glyphs type := by
  rw [normalizeType, glyphs, referenceOffsets]
  cases words type with
  | nil => exact glyphsAt_nil
  | cons first rest =>
    exact glyphsAt_words first rest fun i _ => List.contains_iff_mem

end Scope

-- ═════════════════════════════════════════════════════════════════════════════
-- The second reading
-- ═════════════════════════════════════════════════════════════════════════════

namespace Text

/-- The first piece is where the text starts. -/
theorem exists_arrowPieces (t : Text) :
    ∃ first later, arrowPieces t = first :: later ∧ first <+: t := by
  induction t using arrowPieces.induct with
  | case1 rest _ => exact ⟨[], arrowPieces rest, rfl, List.nil_prefix⟩
  | case2 c rest _ hnil ih =>
    obtain ⟨first, later, hcons, -⟩ := ih
    exact absurd (hnil.symm.trans hcons) (by simp)
  | case3 c rest hnot piece later hcons ih =>
    obtain ⟨first, _, heq, hfirst⟩ := ih
    obtain ⟨rfl, -⟩ := List.cons.inj (hcons.symm.trans heq)
    exact ⟨c :: piece, later, by rw [arrowPieces.eq_2 c rest hnot, hcons],
      List.cons_prefix_cons.2 ⟨rfl, hfirst⟩⟩
  | case4 => exact ⟨[], [], rfl, List.nil_prefix⟩

/-- Another character in front joins the first piece. -/
theorem exists_arrowPieces_cons {c : Char} {rest : Text}
    (hnot : ∀ later, c = '-' → rest = '>' :: later → False) :
    ∃ first later, arrowPieces rest = first :: later ∧ first <+: rest ∧
      arrowPieces (c :: rest) = (c :: first) :: later := by
  obtain ⟨first, later, hcons, hfirst⟩ := exists_arrowPieces rest
  exact ⟨first, later, hcons, hfirst, by rw [arrowPieces.eq_2 c rest hnot, hcons]⟩

/-- Putting the arrows back between the pieces gives the text. -/
theorem intercalate_arrowPieces (t : Text) : ['-', '>'].intercalate (arrowPieces t) = t := by
  have cons : ∀ (c : Char) (rest : Text), (∀ later, c = '-' → rest = '>' :: later → False) →
      ['-', '>'].intercalate (arrowPieces rest) = rest →
      ['-', '>'].intercalate (arrowPieces (c :: rest)) = c :: rest := by
    intro c rest hnot ih
    obtain ⟨first, later, hrest, -, hcons⟩ := exists_arrowPieces_cons hnot
    rw [hrest, intercalate_cons_eq_append_flatMap] at ih
    rw [hcons, intercalate_cons_eq_append_flatMap, List.cons_append, ih]
  induction t using arrowPieces.induct with
  | case1 rest ih =>
    obtain ⟨first, later, hrest, -⟩ := exists_arrowPieces rest
    rw [arrowPieces, List.intercalate_cons_of_ne_nil (by simp [hrest]), ih]
    rfl
  | case2 c rest hnot _ ih => exact cons c rest hnot ih
  | case3 c rest hnot _ _ _ ih => exact cons c rest hnot ih
  | case4 => rfl

/-- No arrow is left in a piece, and nothing is in it that is not in the text. -/
theorem isFree_of_mem_arrowPieces {t piece : Text} (hcolon : ':' ∉ t)
    (h : piece ∈ arrowPieces t) : IsFree punctuation piece := by
  have cons : ∀ (c : Char) (rest : Text), (∀ later, c = '-' → rest = '>' :: later → False) →
      c ≠ ':' → (∀ other ∈ arrowPieces rest, IsFree punctuation other) →
      ∀ other ∈ arrowPieces (c :: rest), IsFree punctuation other := by
    intro c rest hnot hc ih other hother
    obtain ⟨first, later, hrest, hfirst, hcons⟩ := exists_arrowPieces_cons hnot
    rw [hrest] at ih
    rw [hcons] at hother
    rcases List.mem_cons.1 hother with rfl | hlater
    · refine (ih first List.mem_cons_self).cons hc ?_
      rintro rfl hhead
      obtain ⟨tail, rfl⟩ := List.head?_eq_some_iff.1 hhead
      obtain ⟨behind, rfl⟩ := hfirst
      exact hnot _ rfl rfl
    · exact ih other (List.mem_cons_of_mem first hlater)
  induction t using arrowPieces.induct generalizing piece with
  | case1 rest ih =>
    rw [arrowPieces] at h
    rcases List.mem_cons.1 h with rfl | hlater
    · exact isFree_nil
    · exact ih (fun hmem => hcolon (by simp [hmem])) hlater
  | case2 c rest hnot _ ih =>
    rw [List.mem_cons, not_or] at hcolon
    exact cons c rest hnot (Ne.symm hcolon.1) (fun _ => ih hcolon.2) piece h
  | case3 c rest hnot _ _ _ ih =>
    rw [List.mem_cons, not_or] at hcolon
    exact cons c rest hnot (Ne.symm hcolon.1) (fun _ => ih hcolon.2) piece h
  | case4 =>
    obtain rfl := List.mem_singleton.1 h
    exact isFree_nil

end Text

namespace Document

theorem shown_append (d e : Document) : shown (d ++ e) = shown d ++ shown e :=
  List.filter_append ..

theorem shown_reference_cons {c : Char} {run : Text} (d : Document) :
    shown (.reference (c :: run) :: d) = .reference (c :: run) :: shown d := rfl

variable {offsets : List Nat} {base : Nat} {t : Text}

/-- Cutting a text, when `pending` was passed since the last reference and the identifiers
of `rest` are still to come. -/
theorem shown_cut (done pending : Text) (start : Nat) {rest : Text}
    (ht : t = done ++ (pending ++ rest))
    (hstart : start = done.length + pending.length) (hfree : IsFree punctuation t) :
    shown (cut offsets base t done.length (identifiersFrom start 0 rest)) =
      ofGlyphs (pending.map .char ++ glyphsAt offsets.contains (base + start) rest) := by
  have hpending : ofGlyphs (pending.map .char) = shown [.plain pending] :=
    ofGlyphs_map_char (hfree.of_infix ⟨done, rest, by simp [ht]⟩)
  induction read rest generalizing done pending start with
  | nil =>
    have hdrop : t.drop done.length = pending := by
      rw [ht, List.append_nil, List.drop_left]
    rw [glyphsAt_nil, List.append_nil, hpending, identifiersFrom, cut, hdrop]
  | @char c rest hc _ ih =>
    rw [identifiersFrom_char hc, glyphsAt_char hc]
    have hrest := ih done (pending ++ [c]) (start + 1) (by simp [ht])
      (by simp [hstart, Nat.add_assoc])
      (ofGlyphs_map_char (hfree.of_infix ⟨done, rest, by simp [ht]⟩))
    rw [hrest, List.map_append, List.append_assoc]
    rfl
  | @name c run rest hc hrun hend _ ih =>
    have hnext : base + start + 1 + run.length = base + (start + 1 + run.length) := by omega
    rw [identifiersFrom_name hc hrun hend, glyphsAt_name hc hrun hend, cut, hnext]
    by_cases hat : offsets.contains (base + start) = true
    · rw [if_pos hat, if_pos hat, List.singleton_append, ofGlyphs_append_name, hpending]
      have htake : (t.take start).drop done.length = pending := by
        rw [ht, hstart, ← List.append_assoc, ← List.length_append, List.take_left, List.drop_left]
      have hrest := ih (done ++ (pending ++ c :: run)) [] (start + 1 + run.length)
        (by simp [ht]) (by simp [hstart]; omega) rfl
      have hlength : (done ++ (pending ++ c :: run)).length = start + (c :: run).length := by
        simp [hstart]
        omega
      rw [hlength] at hrest
      rw [htake]
      show shown ([.plain pending] ++ _) = _
      rw [shown_append, shown_reference_cons, hrest]
      rfl
    · rw [if_neg hat, if_neg hat]
      have hrest := ih done (pending ++ c :: run) (start + 1 + run.length) (by simp [ht])
        (by simp [hstart]; omega)
        (ofGlyphs_map_char (hfree.of_infix ⟨done, rest, by simp [ht]⟩))
      rw [hrest, List.map_append, List.append_assoc]

/-- A piece without punctuation shows its names and what is between them. -/
theorem shown_referring (offsets : List Nat) (base : Nat) (hfree : IsFree punctuation t) :
    shown (referring offsets base t) = ofGlyphs (glyphsAt offsets.contains base t) := by
  rw [referring]
  split
  · next hempty =>
    have hunmarked : glyphsAt offsets.contains base t = t.map .char :=
      glyphsAt_of_unmarked fun i _ _ => by rw [List.isEmpty_iff.1 hempty]; rfl
    rw [hunmarked, ofGlyphs_map_char hfree]
  · exact shown_cut [] [] 0 rfl rfl hfree

end Document

/-- The way from one colouring to another has put the text at the end, in colour. -/
structure Colouring.Shows (marked : Nat → Bool) (s s' : Colouring) (t : Text) : Prop where
  tokens : s'.tokens.shown =
    s.tokens.shown ++ Document.ofGlyphs (glyphsAt marked s.offset t)
  offset : s'.offset = s.offset + t.length

namespace Colouring

variable {marked : Nat → Bool} {s mid s' : Colouring} {t u sep : Text}

theorem Shows.piece (offsets : List Nat) (s : Colouring) (hfree : IsFree punctuation t) :
    Shows offsets.contains s (s.piece offsets t) t where
  tokens := by
    rw [Colouring.piece, Document.shown_append, Document.shown_referring offsets s.offset hfree]
  offset := rfl

/-- Punctuation is part of no name. -/
theorem not_isNameChar_of_mem_punctuation (hsep : sep ∈ punctuation) :
    ∀ d ∈ sep, isNameChar d = false := by
  obtain rfl | rfl : sep = [':'] ∨ sep = ['-', '>'] := by simpa [punctuation] using hsep
  · simp [isNameChar]
  · simp [isNameChar]

/-- What is put behind punctuation is put behind what stands before it. -/
theorem Shows.mark (hsep : sep ∈ punctuation) (hfirst : Shows marked s mid t)
    (hrest : Shows marked (mid.mark sep) s' u) : Shows marked s s' (t ++ (sep ++ u)) := by
  have hnames := not_isNameChar_of_mem_punctuation hsep
  have hhead : ∀ d ∈ (sep ++ u).head?, isNameChar d = false := by
    obtain ⟨d, rest, rfl⟩ : ∃ d rest, sep = d :: rest :=
      List.exists_cons_of_ne_nil fun hnil => by simp [hnil, punctuation] at hsep
    intro d' hd'
    obtain rfl : d = d' := Option.some.inj hd'
    exact hnames d List.mem_cons_self
  have hmarked : (mid.mark sep).tokens.shown = mid.tokens.shown ++ [.keyword sep] := by
    rw [Colouring.mark, Document.shown_append]
    obtain rfl | rfl : sep = [':'] ∨ sep = ['-', '>'] := by simpa [punctuation] using hsep
    · rfl
    · rfl
  constructor
  · rw [hrest.tokens, hmarked, hfirst.tokens, glyphsAt_append hhead,
      glyphsAt_append_of_forall hnames,
      Document.ofGlyphs_append_mark hsep, Colouring.mark, hfirst.offset]
    simp
  · rw [hrest.offset, Colouring.mark, hfirst.offset]
    simp [Nat.add_assoc]

/-- Parts that are put at the end one by one are put there with the punctuation between
them. -/
theorem Shows.parts (sep : Text) (hsep : sep ∈ punctuation) {add : Colouring → Text → Colouring}
    {parts : List Text} (hne : parts ≠ [])
    (hadd : ∀ s, ∀ part ∈ parts, Shows marked s (add s part) part) (s : Colouring) :
    Shows marked s (s.parts sep add parts) (sep.intercalate parts) := by
  have run : ∀ (rest : List Text) (mid : Colouring) (t : Text),
      (∀ part ∈ rest, part ∈ parts) → Shows marked s mid t →
      Shows marked s (rest.foldl (fun s part => add (s.mark sep) part) mid)
        (t ++ rest.flatMap (sep ++ ·)) := by
    intro rest
    induction rest with
    | nil =>
      intro mid t _ hmid
      rwa [List.flatMap_nil, List.append_nil]
    | cons part rest ih =>
      intro mid t hparts hmid
      have hpart := hmid.mark hsep (hadd (mid.mark sep) part (hparts part List.mem_cons_self))
      have hlater : ∀ other ∈ rest, other ∈ parts :=
        fun other hother => hparts other (List.mem_cons_of_mem part hother)
      have hrest := ih _ _ hlater hpart
      rwa [List.append_assoc] at hrest
  obtain ⟨first, rest, rfl⟩ := List.exists_cons_of_ne_nil hne
  rw [intercalate_cons_eq_append_flatMap]
  exact run rest _ first (fun part hpart => List.mem_cons_of_mem first hpart)
    (hadd s first List.mem_cons_self)

end Colouring

/-- **The two readings of a type** give what its words give one by one: the names that the
first reading counts are found by the second where they stand. -/
theorem Scope.typeDocument_eq_ofGlyphs (scope : Scope) (type : Text) :
    scope.typeDocument type = .ofGlyphs (scope.glyphs type) := by
  let offsets := scope.referenceOffsets type
  let arrows (s : Colouring) (part : Text) : Colouring :=
    s.parts ['-', '>'] (Colouring.piece offsets) (arrowPieces part)
  have harrows : ∀ s, ∀ part ∈ pieces (· == ':') (normalizeType type),
      Colouring.Shows offsets.contains s (arrows s part) part := by
    intro s part hpart
    have hcolon : ':' ∉ part := fun hmem =>
      absurd (cut_eq_false_of_mem_pieces hpart _ hmem) (by decide)
    obtain ⟨first, later, hcons, -⟩ := exists_arrowPieces part
    have hshows := Colouring.Shows.parts ['-', '>'] (by simp [punctuation])
      (by rw [hcons]; simp)
      (fun s piece hpiece => .piece offsets s (isFree_of_mem_arrowPieces hcolon hpiece)) s
    rwa [intercalate_arrowPieces] at hshows
  have hcolons := Colouring.Shows.parts [':'] (by simp [punctuation])
    (pieces_ne_nil _ (normalizeType type)) harrows {}
  rw [intercalate_pieces] at hcolons
  have htokens := hcolons.tokens
  rwa [Scope.glyphsAt_referenceOffsets] at htokens

end PackageDocs
