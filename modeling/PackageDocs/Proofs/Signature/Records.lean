import PackageDocs.Proofs.Signature.Balance
import PackageDocs.Proofs.Signature.Cuts
import PackageDocs.Proofs.Text.Trim
import PackageDocs.Signature.Record

/-!
# Cuts of a record

A record is cut before each of its own commas and behind the brace that closes it. The
scan that collects the pieces agrees with a recursion on the text, which looks at what is
left of a record and at the brackets that are open in front of it.

## Main definitions

- `Text.ClosesRecord`, `Text.OpensField`, `Text.EndsRecord`: the brace that closes a
  record, and the two kinds of cuts
- `recordCuts`: all places at which a text is cut
- `piecesFrom`: the pieces of what is left of a record

## Main results

- `pieces_eq_piecesFrom`: the recursion agrees with the scan
- `between_recordCutsFrom`: the pieces stand between the cuts
- `splitRecord_cuts`: what cutting a record keeps, and where it is cut
-/

namespace PackageDocs

open Text

namespace Text

/-- At this place stands the brace that closes a record: one brace is open before it and
none behind it. -/
def ClosesRecord (t : Text) (i : Nat) : Prop :=
  t[i]? = some '}' ∧ depthFrom '{' '}' 0 (t.take i) = 1

/-- At this place stands a comma of the record itself: one brace is open and no
parenthesis, and no record is closed before it. -/
def OpensField (t : Text) (i : Nat) : Prop :=
  t[i]? = some ',' ∧ depthFrom '(' ')' 0 (t.take i) = 0 ∧ depthFrom '{' '}' 0 (t.take i) = 1 ∧
    ∀ j < i, ¬ t.ClosesRecord j

/-- Right before this place stands the first brace that closes a record. -/
def EndsRecord (t : Text) (i : Nat) : Prop :=
  ∃ j < i, i = j + 1 ∧ t.ClosesRecord j ∧ ∀ k < j, ¬ t.ClosesRecord k

instance (t : Text) : DecidablePred t.ClosesRecord := fun i =>
  inferInstanceAs (Decidable (t[i]? = some '}' ∧ depthFrom '{' '}' 0 (t.take i) = 1))

instance (t : Text) : DecidablePred t.OpensField := fun i =>
  inferInstanceAs (Decidable (t[i]? = some ',' ∧ depthFrom '(' ')' 0 (t.take i) = 0 ∧
    depthFrom '{' '}' 0 (t.take i) = 1 ∧ ∀ j < i, ¬ t.ClosesRecord j))

instance (t : Text) : DecidablePred t.EndsRecord := fun i =>
  inferInstanceAs (Decidable
    (∃ j < i, i = j + 1 ∧ t.ClosesRecord j ∧ ∀ k < j, ¬ t.ClosesRecord k))

end Text

/-- The places at which the text is cut. -/
def recordCuts (t : Text) : List Nat :=
  (List.range (t.length + 1)).filter fun i => t.OpensField i ∨ t.EndsRecord i

variable {parens braces : Nat}

/-- The pieces of what is left of a record, in front of which the given numbers of
parentheses and braces are open. -/
def piecesFrom (parens braces : Nat) : Text → List Text
  | [] => [[]]
  | c :: rest =>
    if c = ',' ∧ parens = 0 ∧ braces = 1 then [] :: attach [c] (piecesFrom parens braces rest)
    else if c = '}' ∧ braces = 1 then [[c], rest]
    else attach [c]
      (piecesFrom (depthAfter '(' ')' parens c) (depthAfter '{' '}' braces c) rest)

-- ═════════════════════════════════════════════════════════════════════════════
-- The recursion and the scan
-- ═════════════════════════════════════════════════════════════════════════════

theorem piecesFrom_ne_nil (parens braces : Nat) (t : Text) : piecesFrom parens braces t ≠ [] := by
  cases t with
  | nil => simp [piecesFrom]
  | cons c rest =>
    rw [piecesFrom]
    split
    · simp
    · split
      · simp
      · exact attach_ne_nil _ _

namespace Scan

variable {s : Scan}

/-- A closed record is read to the end of the text. -/
theorem chunks_run_of_finished (hs : s.finished = true) (t : Text) :
    (s.run .record t).close.chunks = s.chunks ++ [s.current ++ t] := by
  induction t generalizing s with
  | nil =>
    rw [List.append_nil]
    rfl
  | cons c t ih =>
    have hstep : step .record s c = s.read c := if_pos hs
    show ((step .record s c).run .record t).close.chunks = _
    rw [hstep, ih (s := s.read c) hs]
    simp [read]

theorem HasDepths.readRecord_eq (h : s.HasDepths parens braces) (hs : s.finished = false)
    (c : Char) :
    s.readRecord c =
      if c = ',' ∧ parens = 0 ∧ braces = 1 then s.close.read c
      else if c = '}' ∧ braces = 1 then { (s.read c).close with finished := true }
      else s.read c := by
  have hparens : s.parens = 0 ↔ parens = 0 := by
    rw [h.parens]
    omega
  have hbraces : s.braces = 1 ↔ braces = 1 := by
    rw [h.braces]
    omega
  simp only [readRecord, hs, hparens, hbraces, Bool.false_eq_true, if_false]

/-- The recursion on what is left of the text agrees with the scan. -/
theorem HasDepths.chunks_run_record (h : s.HasDepths parens braces) (hs : s.finished = false)
    (t : Text) :
    (s.run .record t).close.chunks = s.chunks ++ attach s.current (piecesFrom parens braces t) := by
  -- From any state: the closed chunks stay, the current one joins the first piece.
  induction t generalizing s parens braces with
  | nil =>
    show s.chunks ++ [s.current] = s.chunks ++ [s.current ++ []]
    rw [List.append_nil]
  | cons c t ih =>
    show ((s.readRecord c).run .record t).close.chunks = _
    rw [h.readRecord_eq hs, piecesFrom]
    by_cases hcomma : c = ',' ∧ parens = 0 ∧ braces = 1
    · obtain ⟨rfl, hdepths⟩ := hcomma
      have hread : (s.close.read ',').HasDepths parens braces :=
        (h.perform .close).step .whole ','
      rw [if_pos ⟨rfl, hdepths⟩, if_pos ⟨rfl, hdepths⟩, ih hread hs]
      simp [close, read, attach]
    · rw [if_neg hcomma, if_neg hcomma]
      by_cases hbrace : c = '}' ∧ braces = 1
      · rw [if_pos hbrace, if_pos hbrace, chunks_run_of_finished rfl]
        simp [close, read, attach]
      · have hread : (s.read c).HasDepths (depthAfter '(' ')' parens c)
            (depthAfter '{' '}' braces c) := h.step .whole c
        rw [if_neg hbrace, if_neg hbrace, ih hread hs, attach_attach]
        rfl

end Scan

/-- The pieces of a text, the last one included, are found by the recursion. -/
theorem pieces_eq_piecesFrom (t : Text) :
    (recordPieces t).1 ++ [(recordPieces t).2] = piecesFrom 0 0 t := by
  have hrun := Scan.hasDepths_fresh.chunks_run_record rfl t
  exact hrun.trans (attach_nil (piecesFrom_ne_nil 0 0 t))

-- ═════════════════════════════════════════════════════════════════════════════
-- What the pieces hold
-- ═════════════════════════════════════════════════════════════════════════════

theorem Text.flatten_attach (front : Text) (parts : List Text) :
    (attach front parts).flatten = front ++ parts.flatten := by
  cases parts <;> simp [attach]

/-- The pieces hold every character of the text. -/
theorem flatten_piecesFrom (parens braces : Nat) (t : Text) :
    (piecesFrom parens braces t).flatten = t := by
  induction t generalizing parens braces with
  | nil => rfl
  | cons c rest ih =>
    rw [piecesFrom]
    split
    · rw [List.flatten_cons, flatten_attach, ih]
      rfl
    · split
      · simp
      · rw [flatten_attach, ih]
        rfl

theorem not_isBlankText_of_mem {t : Text} {c : Char} (hc : c ∈ t) (hsolid : isBlank c = false) :
    ¬ IsBlankText t :=
  fun h => by simp [h c hc] at hsolid

/-- A piece that a cut ends is not blank: it holds the brace or the comma it starts at. -/
theorem not_isBlankText_piecesFrom {front : Text} (hfront : braces ≠ 0 → ¬ IsBlankText front)
    (t : Text) :
    ∀ piece ∈ (attach front (piecesFrom parens braces t)).dropLast, ¬ IsBlankText piece := by
  induction t generalizing front parens braces with
  | nil => simp [piecesFrom, attach]
  | cons c rest ih =>
    rw [piecesFrom]
    by_cases hcomma : c = ',' ∧ parens = 0 ∧ braces = 1
    · obtain ⟨rfl, rfl, rfl⟩ := hcomma
      rw [if_pos ⟨rfl, rfl, rfl⟩, attach, List.append_nil,
        List.dropLast_cons_of_ne_nil (attach_ne_nil _ _), List.forall_mem_cons]
      exact ⟨hfront Nat.one_ne_zero, ih fun _ => by decide⟩
    · rw [if_neg hcomma]
      by_cases hbrace : c = '}' ∧ braces = 1
      · obtain ⟨rfl, rfl⟩ := hbrace
        rw [if_pos ⟨rfl, rfl⟩]
        intro piece hpiece
        obtain rfl : piece = front ++ ['}'] := by simpa [attach] using hpiece
        exact not_isBlankText_of_mem (c := '}') (by simp) (by decide)
      · rw [if_neg hbrace, attach_attach]
        apply ih
        intro hbraces
        by_cases hopener : c = '{'
        · subst hopener
          exact not_isBlankText_of_mem (c := '{') (by simp) (by decide)
        · -- No brace is opened here, so one was open before.
          have hopen : braces ≠ 0 := by
            rw [depthAfter, if_neg hopener] at hbraces
            split at hbraces <;> omega
          exact fun hblank => hfront hopen fun d hd => hblank d (List.mem_append_left _ hd)

-- ═════════════════════════════════════════════════════════════════════════════
-- The places of the cuts
-- ═════════════════════════════════════════════════════════════════════════════

/-- No record is closed within the text. -/
def Text.StaysOpen (t : Text) : Prop :=
  ∀ i < t.length, ¬ t.ClosesRecord i

/-- The cuts behind `front`, each as a place where nothing is left out. -/
def recordCutsFrom (front rest : Text) : List (Nat × Nat) :=
  ((List.range' front.length (rest.length + 1)).filter fun i =>
    (front ++ rest).OpensField i ∨ (front ++ rest).EndsRecord i).map fun i => (i, i)

namespace Text

variable {front rest : Text} {c : Char}

theorem closesRecord_append_iff {i : Nat} (hi : i < front.length) :
    (front ++ rest).ClosesRecord i ↔ front.ClosesRecord i := by
  rw [ClosesRecord, ClosesRecord, List.getElem?_append_left hi,
    List.take_append_of_le_length (Nat.le_of_lt hi)]

theorem closesRecord_length_iff :
    (front ++ c :: rest).ClosesRecord front.length ↔
      c = '}' ∧ depthFrom '{' '}' 0 front = 1 := by
  rw [ClosesRecord, List.getElem?_append_right (Nat.le_refl _), List.take_left]
  simp

theorem staysOpen_nil : StaysOpen [] := by
  intro i hi
  exact absurd hi (Nat.not_lt_zero i)

theorem StaysOpen.append (h : front.StaysOpen) (hc : ¬(c = '}' ∧ depthFrom '{' '}' 0 front = 1)) :
    (front ++ [c]).StaysOpen := by
  intro i hi
  rw [List.length_append, List.length_singleton] at hi
  by_cases hfront : i < front.length
  · rw [closesRecord_append_iff hfront]
    exact h i hfront
  · obtain rfl : i = front.length := by omega
    rw [closesRecord_length_iff]
    exact hc

theorem StaysOpen.not_endsRecord (h : front.StaysOpen) {i : Nat} (hi : i ≤ front.length) :
    ¬ (front ++ rest).EndsRecord i := by
  rintro ⟨j, hj, -, hcloses, -⟩
  rw [closesRecord_append_iff (by omega)] at hcloses
  exact h j (by omega) hcloses

theorem StaysOpen.opensField_length_iff (h : front.StaysOpen) :
    (front ++ c :: rest).OpensField front.length ↔
      c = ',' ∧ depthFrom '(' ')' 0 front = 0 ∧ depthFrom '{' '}' 0 front = 1 := by
  have hopen : ∀ j < front.length, ¬ (front ++ c :: rest).ClosesRecord j := by
    intro j hj
    rw [closesRecord_append_iff hj]
    exact h j hj
  rw [OpensField, List.getElem?_append_right (Nat.le_refl _), List.take_left, Nat.sub_self,
    List.getElem?_cons_zero, Option.some_inj]
  constructor
  · rintro ⟨hc, hparens, hbraces, -⟩
    exact ⟨hc, hparens, hbraces⟩
  · rintro ⟨hc, hparens, hbraces⟩
    exact ⟨hc, hparens, hbraces, hopen⟩

/-- The brace that closes the record is followed by the last cut. -/
theorem StaysOpen.isCut_iff (h : front.StaysOpen) (hbraces : depthFrom '{' '}' 0 front = 1)
    {i : Nat} (hi : front.length < i) :
    ((front ++ '}' :: rest).OpensField i ∨ (front ++ '}' :: rest).EndsRecord i) ↔
      i = front.length + 1 := by
  have hcloses : (front ++ '}' :: rest).ClosesRecord front.length :=
    closesRecord_length_iff.2 ⟨rfl, hbraces⟩
  constructor
  · rintro (⟨-, -, -, hopen⟩ | ⟨j, hj, rfl, -, hfirst⟩)
    · exact absurd hcloses (hopen front.length hi)
    · have hle : ¬ front.length < j := fun hlt => hfirst front.length hlt hcloses
      omega
  · rintro rfl
    refine Or.inr ⟨front.length, Nat.lt_succ_self _, rfl, hcloses, ?_⟩
    intro k hk
    rw [closesRecord_append_iff hk]
    exact h k hk

end Text

/-- Behind an open text the first place is a cut if a comma of the record stands there. -/
theorem recordCutsFrom_cons {front : Text} (h : front.StaysOpen) (c : Char) (rest : Text) :
    recordCutsFrom front (c :: rest) =
      (if c = ',' ∧ depthFrom '(' ')' 0 front = 0 ∧ depthFrom '{' '}' 0 front = 1 then
        [(front.length, front.length)] else []) ++ recordCutsFrom (front ++ [c]) rest := by
  have hfirst : ((front ++ c :: rest).OpensField front.length ∨
      (front ++ c :: rest).EndsRecord front.length) ↔
      c = ',' ∧ depthFrom '(' ')' 0 front = 0 ∧ depthFrom '{' '}' 0 front = 1 := by
    rw [h.opensField_length_iff, or_iff_left (h.not_endsRecord (Nat.le_refl _))]
  rw [recordCutsFrom, List.length_cons, List.range'_succ, List.filter_cons]
  simp only [hfirst, decide_eq_true_eq, recordCutsFrom, List.length_append, List.length_singleton,
    List.append_assoc, List.singleton_append]
  split <;> rfl

/-- Behind the brace that closes the record nothing is cut. -/
theorem recordCutsFrom_closed {front : Text} (h : front.StaysOpen)
    (hbraces : depthFrom '{' '}' 0 front = 1) (rest : Text) :
    recordCutsFrom (front ++ ['}']) rest = [(front.length + 1, front.length + 1)] := by
  have hcuts : ∀ i ∈ List.range' (front.length + 1) (rest.length + 1),
      (decide ((front ++ '}' :: rest).OpensField i ∨ (front ++ '}' :: rest).EndsRecord i)) =
        decide (i = front.length + 1) := by
    intro i hi
    rw [List.mem_range'_1] at hi
    exact decide_eq_decide.2 (h.isCut_iff hbraces (by omega))
  have hlater : (List.range' (front.length + 1 + 1) rest.length).filter
      (fun i => decide (i = front.length + 1)) = [] := by
    rw [List.filter_eq_nil_iff]
    intro i hi
    rw [List.mem_range'_1] at hi
    simp only [decide_eq_true_eq]
    omega
  rw [recordCutsFrom, List.length_append, List.length_singleton, List.append_assoc,
    List.singleton_append, List.filter_congr hcuts, List.range'_succ, List.filter_cons, hlater]
  simp

/-- The pieces of what is left of a record stand between the cuts that are left. -/
theorem between_recordCutsFrom {front : Text} (h : front.StaysOpen) (t : Text) (start : Nat)
    (hstart : start ≤ front.length) :
    (front ++ t).between start (recordCutsFrom front t) =
      attach (front.drop start)
        (piecesFrom (depthFrom '(' ')' 0 front) (depthFrom '{' '}' 0 front) t) := by
  induction t generalizing front start with
  | nil =>
    have hcuts : recordCutsFrom front [] = [] := by
      rw [recordCutsFrom, List.append_nil, List.map_eq_nil_iff, List.filter_eq_nil_iff]
      intro i hi
      rw [List.mem_range'_1] at hi
      obtain rfl : i = front.length := by simp at hi; omega
      have hends : ¬ (front ++ []).EndsRecord front.length := h.not_endsRecord (Nat.le_refl _)
      rw [List.append_nil] at hends
      simp [hends, OpensField]
    rw [hcuts, List.append_nil, Text.between, piecesFrom, attach, List.append_nil]
  | cons c rest ih =>
    have hlength : (front ++ [c]).length = front.length + 1 := List.length_append
    have happend : front ++ c :: rest = front ++ [c] ++ rest := by simp
    rw [recordCutsFrom_cons h, piecesFrom]
    by_cases hcomma : c = ',' ∧ depthFrom '(' ')' 0 front = 0 ∧ depthFrom '{' '}' 0 front = 1
    · obtain ⟨rfl, hdepths⟩ := hcomma
      rw [if_pos ⟨rfl, hdepths⟩, if_pos ⟨rfl, hdepths⟩, List.singleton_append, Text.between,
        List.take_left, attach, List.append_nil, happend, ih (h.append (by simp)) _ (by omega),
        List.drop_left, depthFrom_append, depthFrom_append]
      rfl
    · rw [if_neg hcomma, if_neg hcomma, List.nil_append]
      by_cases hbrace : c = '}' ∧ depthFrom '{' '}' 0 front = 1
      · obtain ⟨rfl, hbraces⟩ := hbrace
        rw [if_pos ⟨rfl, hbraces⟩, recordCutsFrom_closed h hbraces, Text.between, Text.between,
          attach, happend, ← hlength, List.take_left, List.drop_left,
          List.drop_append_of_le_length hstart]
      · rw [if_neg hbrace, attach_attach, happend, ih (h.append hbrace) start (by omega),
          List.drop_append_of_le_length hstart, depthFrom_append, depthFrom_append]
        rfl

-- ═════════════════════════════════════════════════════════════════════════════
-- Trimmed pieces
-- ═════════════════════════════════════════════════════════════════════════════

/-- Of all pieces only a blank rest is left out. -/
theorem splitRecord_eq (type : Text) :
    splitRecord type = (recordPieces type).1.map trim ++
      if IsBlankText (recordPieces type).2 then [] else [trim (recordPieces type).2] := by
  simp only [splitRecord, List.isEmpty_iff, trim_eq_nil_iff]

theorem ne_nil_of_mem_splitRecord {type segment : Text} (h : segment ∈ splitRecord type) :
    segment ≠ [] := by
  have hsolid := @not_isBlankText_piecesFrom 0 0 [] (absurd rfl) type
  rw [attach_nil (piecesFrom_ne_nil 0 0 type), ← pieces_eq_piecesFrom,
    List.dropLast_concat] at hsolid
  rw [splitRecord_eq, List.mem_append] at h
  rcases h with h | h
  · obtain ⟨piece, hpiece, rfl⟩ := List.mem_map.1 h
    exact mt trim_eq_nil_iff.1 (hsolid piece hpiece)
  · split at h
    · exact absurd h List.not_mem_nil
    · next hrest =>
      rw [List.mem_singleton.1 h]
      exact mt trim_eq_nil_iff.1 hrest

theorem withoutBlanks_splitRecord (type : Text) :
    withoutBlanks (splitRecord type).flatten = withoutBlanks type := by
  have hrest : withoutBlanks (if IsBlankText (recordPieces type).2 then []
      else [trim (recordPieces type).2]).flatten = withoutBlanks (recordPieces type).2 := by
    split
    · next h => exact h.withoutBlanks_eq.symm
    · rw [List.flatten_singleton, withoutBlanks_trim]
  rw [splitRecord_eq, List.flatten_append, withoutBlanks_append, withoutBlanks_flatten_map_trim,
    hrest, ← withoutBlanks_append]
  conv_rhs => rw [← flatten_piecesFrom 0 0 type, ← pieces_eq_piecesFrom]
  rw [List.flatten_append, List.flatten_singleton]

/-- No cut is behind a brace that closes a record. -/
theorem le_of_mem_recordCuts {t : Text} {i j : Nat} (hi : i ∈ recordCuts t)
    (hj : t.ClosesRecord j) : i ≤ j + 1 := by
  have hcut := of_decide_eq_true (List.mem_filter.1 hi).2
  rcases hcut with ⟨-, -, -, hopen⟩ | ⟨k, -, rfl, -, hfirst⟩
  · have hle : ¬ j < i := fun hlt => hopen j hlt hj
    omega
  · have hle : ¬ j < k := fun hlt => hfirst j hlt hj
    omega

/-- **Cutting a record keeps all of it.** The pieces of a text follow each other in it.
They are cut before the commas that stand directly in its first record, outside all
parentheses, and behind the brace that closes this record; behind that brace nothing is
cut. The segments are the pieces without the blanks at their ends, and only a blank rest
is left out: no segment is empty, and together they have every character of the text that
is not blank. -/
theorem splitRecord_cuts (type : Text) :
    ∃ cut rest, recordPieces type = (cut, rest) ∧
      (cut ++ [rest]).flatten = type ∧
      cut ++ [rest] = type.between 0 ((recordCuts type).map fun i => (i, i)) ∧
      (∀ i ∈ recordCuts type, ∀ j, type.ClosesRecord j → i ≤ j + 1) ∧
      splitRecord type = cut.map trim ++ (if IsBlankText rest then [] else [trim rest]) ∧
      (∀ segment ∈ splitRecord type, segment ≠ []) ∧
      withoutBlanks (splitRecord type).flatten = withoutBlanks type := by
  refine ⟨(recordPieces type).1, (recordPieces type).2, rfl, ?_, ?_,
    fun i hi j hj => le_of_mem_recordCuts hi hj, splitRecord_eq type,
    fun segment hsegment => ne_nil_of_mem_splitRecord hsegment, withoutBlanks_splitRecord type⟩
  · rw [pieces_eq_piecesFrom, flatten_piecesFrom]
  · have hbetween := between_recordCutsFrom staysOpen_nil type 0 (Nat.le_refl 0)
    have hcuts : recordCutsFrom [] type = (recordCuts type).map fun i => (i, i) := by
      rw [recordCutsFrom, recordCuts, List.range_eq_range']
      rfl
    rw [hcuts] at hbetween
    rw [pieces_eq_piecesFrom]
    exact (hbetween.trans (attach_nil (piecesFrom_ne_nil 0 0 type))).symm

end PackageDocs
