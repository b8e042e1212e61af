import PackageDocs.Entry.Fixity
import PackageDocs.Proofs.Except
import PackageDocs.Style.Reader
import PackageDocs.Style.Styled

/-!
# The text of styled documents

Styling a document keeps its text, up to the characters that no styled text holds. Only a
malformed style stands in the way.

## Main definitions

- `StyleSheet.WellFormed`: every style of the sheet can be read

## Main results

- `StyledText.text_appendTokens`: what styling keeps of a text
- `StyleSheet.WellFormed.exists_ofDocument`: every document can be styled
- `Value.kept_fixity`: fixities keep all their characters
-/

namespace PackageDocs

variable {σ : Type}

/-- Every style of the sheet can be read. -/
structure StyleSheet.WellFormed (styles : StyleLanguage σ) (sheet : StyleSheet) : Prop where
  keyword : ∃ style, styles.read sheet.keyword = .ok style
  link : ∃ style, styles.read sheet.link = .ok style
  name : ∃ style, styles.read sheet.name = .ok style

/-- The usual styles are well-formed in the language of the palette. -/
theorem StyleSheet.wellFormed_default : StyleSheet.WellFormed Style.palette {} where
  keyword := isSome_toOption_iff.1 (by decide +kernel)
  link := isSome_toOption_iff.1 (by decide +kernel)
  name := isSome_toOption_iff.1 (by decide +kernel)

variable {styles : StyleLanguage σ} {sheet : StyleSheet}

theorem StyleSheet.WellFormed.exists_style (h : sheet.WellFormed styles) (token : Token) :
    ∃ style, token.style styles sheet = .ok style := by
  unfold Token.style
  cases token.role with
  | plain => exact ⟨_, rfl⟩
  | keyword => exact h.keyword
  | link =>
    have hread : ∃ style, styles.read (if token.bold then sheet.name else sheet.link) =
        .ok style := by
      split
      · exact h.name
      · exact h.link
    obtain ⟨style, hstyle⟩ := hread
    rw [hstyle]
    exact ⟨_, rfl⟩

namespace StyledText

theorem kept_append (s t : Text) : kept (s ++ t) = kept s ++ kept t :=
  List.filter_append ..

theorem text_append (styles : StyleLanguage σ) (styled : StyledText σ) (t : Text) (style : σ) :
    (styled.append styles t style).text = styled.text ++ kept t := by
  unfold append
  split
  · next hempty =>
    obtain rfl : t = [] := List.isEmpty_iff.1 hempty
    exact (List.append_nil _).symm
  · split <;> rfl

theorem text_appendTokens {styled out : StyledText σ} {d : Document}
    (h : styled.appendTokens styles sheet d = .ok out) :
    out.text = styled.text ++ kept d.plain := by
  induction d generalizing styled with
  | nil =>
    obtain rfl : styled = out := by simpa [appendTokens] using h
    exact (List.append_nil _).symm
  | cons token rest ih =>
    rw [appendTokens] at h
    cases hstyle : token.style styles sheet with
    | error malformed =>
      rw [hstyle] at h
      exact absurd h (by simp [bind, Except.bind])
    | ok style =>
      rw [hstyle] at h
      have hrest := ih h
      rw [hrest, text_append, List.append_assoc, ← kept_append]
      rfl

end StyledText

open StyledText

namespace StyleSheet.WellFormed

theorem exists_appendTokens (h : sheet.WellFormed styles) (styled : StyledText σ) (d : Document) :
    ∃ out, styled.appendTokens styles sheet d = .ok out := by
  induction d generalizing styled with
  | nil => exact ⟨styled, rfl⟩
  | cons token rest ih =>
    obtain ⟨style, hstyle⟩ := h.exists_style token
    obtain ⟨out, hout⟩ := ih (styled.append styles token.text style)
    refine ⟨out, ?_⟩
    rw [appendTokens, hstyle]
    exact hout

/-- Well-formed styles fit every document, and its text is kept. -/
theorem exists_ofDocument (h : sheet.WellFormed styles) (d : Document) :
    ∃ styled, ofDocument styles sheet d = .ok styled ∧ styled.text = kept d.plain := by
  obtain ⟨styled, hstyled⟩ := h.exists_appendTokens {} d
  exact ⟨styled, hstyled, text_appendTokens hstyled⟩

end StyleSheet.WellFormed

-- ═════════════════════════════════════════════════════════════════════════════
-- Fixities
-- ═════════════════════════════════════════════════════════════════════════════

theorem StyledText.kept_eq_self_iff {t : Text} : kept t = t ↔ ∀ c ∈ t, isKept c = true :=
  List.filter_eq_self

theorem StyledText.isKept_of_isDigit {c : Char} (h : c.isDigit = true) : isKept c = true := by
  simp only [isKept, Bool.not_eq_true', Bool.or_eq_false_iff, beq_eq_false_iff_ne]
  refine ⟨⟨⟨⟨?_, ?_⟩, ?_⟩, ?_⟩, ?_⟩ <;> (rintro rfl; exact absurd h (by decide))

theorem kept_ofNat (n : Nat) : kept (Text.ofNat n) = Text.ofNat n :=
  kept_eq_self_iff.2 fun _ hc =>
    isKept_of_isDigit (Nat.isDigit_of_mem_toDigits (by decide) (by decide) hc)

theorem Precedence.kept_text (p : Precedence) : kept p.text = p.text := by
  cases p with
  | level n =>
    cases n with
    | ofNat n => exact kept_ofNat n
    | negSucc n =>
      show kept (['-'] ++ Text.ofNat (n + 1)) = ['-'] ++ Text.ofNat (n + 1)
      rw [kept_append, kept_ofNat]
      rfl
  | flag b => cases b <;> rfl

theorem Value.kept_fixityKeyword (side : Option Text) :
    kept (fixityKeyword side) = fixityKeyword side := by
  unfold fixityKeyword
  dsimp only
  split
  · rfl
  · split <;> rfl

/-- A fixity has no character that styled text drops. -/
theorem Value.kept_fixity {v : Value} {fixity : Text} (h : v.fixity = some fixity) :
    kept fixity = fixity := by
  obtain ⟨name, comment, type, side, level⟩ := v
  cases level with
  | some level =>
    obtain rfl : fixityKeyword side ++ ([' '] ++ level.text) = fixity := by
      cases side <;> exact Option.some.inj h
    rw [kept_append, kept_append, kept_fixityKeyword, level.kept_text]
    rfl
  | none =>
    cases side with
    | some side =>
      obtain rfl : fixityKeyword (some side) = fixity := Option.some.inj h
      exact kept_fixityKeyword _
    | none => exact absurd h (by simp [Value.fixity])

end PackageDocs
