import Mathlib.Data.List.Basic
import PackageDocs.Proofs.Style.Styled

/-!
# Spans of styled documents

Every token of a document is styled where it stands: its span covers what is left of its
own text, behind what is left of the tokens before it. So documents may be styled one
after the other, and all spans of the later one move on by the length of the earlier text.

## Main definitions

- `Token.IsUnreadable`: the style that a token needs cannot be read
- `Token.span?`, `Document.spans`: the span of a token, and those of a document
- `StyledText.followedBy`: two styled texts, one behind the other

## Main results

- `StyledText.appendTokens_eq_map`: tokens are styled alike wherever they stand
- `StyledText.exists_ofDocument_eq_error_iff`: when a document cannot be styled
- `StyledText.spans_ofDocument`, `Document.pairwise_spans`: the spans and their order
- `StyledText.ofDocument_spans`: what styling makes of a document
-/

namespace PackageDocs

variable {σ : Type}

/-- The style that the sheet has for the role of the token cannot be read. -/
def Token.IsUnreadable (styles : StyleLanguage σ) (sheet : StyleSheet) (token : Token) : Prop :=
  match token.role, token.bold with
  | .plain, _ => False
  | .keyword, _ => styles.IsMalformed sheet.keyword
  | .link, true => styles.IsMalformed sheet.name
  | .link, false => styles.IsMalformed sheet.link

/-- The span of a token that stands behind `offset` characters. A token without text has
none, and neither has one whose style sets nothing. -/
def Token.span? (styles : StyleLanguage σ) (sheet : StyleSheet) (offset : Nat) (token : Token) :
    Option (StyledSpan σ) :=
  match token.style styles sheet with
  | .error _ => none
  | .ok style =>
    if token.text = [] ∨ styles.isNull style then none
    else some { start := offset, stop := offset + (StyledText.kept token.text).length, style }

/-- The spans of the tokens, each behind what is kept of all tokens before it. -/
def Document.spans (styles : StyleLanguage σ) (sheet : StyleSheet) (d : Document) :
    List (StyledSpan σ) :=
  d.zipIdx.filterMap fun (token, i) =>
    token.span? styles sheet (StyledText.kept (Document.plain (d.take i))).length

/-- The span in a text with `n` more characters in front. -/
def StyledSpan.shift (n : Nat) (span : StyledSpan σ) : StyledSpan σ :=
  { span with start := n + span.start, stop := n + span.stop }

/-- The styled text with a later one behind it. -/
def StyledText.followedBy (styled later : StyledText σ) : StyledText σ where
  text := styled.text ++ later.text
  spans := styled.spans ++ later.spans.map (.shift styled.text.length)

variable {styles : StyleLanguage σ}

-- ═════════════════════════════════════════════════════════════════════════════
-- One behind the other
-- ═════════════════════════════════════════════════════════════════════════════

namespace StyledText

@[simp] theorem followedBy_empty (styled : StyledText σ) : styled.followedBy {} = styled := by
  simp [followedBy]

theorem followedBy_assoc (styled middle later : StyledText σ) :
    (styled.followedBy middle).followedBy later = styled.followedBy (middle.followedBy later) := by
  simp only [followedBy, mk.injEq, List.append_assoc, List.map_append, List.map_map,
    List.length_append, true_and]
  congr 2
  apply List.map_congr_left
  intro span _
  simp only [Function.comp_apply, StyledSpan.shift, Nat.add_assoc]

/-- What is appended does not depend on what it is appended to. -/
theorem append_eq_followedBy (styled : StyledText σ) (t : Text) (style : σ) :
    styled.append styles t style = styled.followedBy (append styles {} t style) := by
  unfold append
  split
  · rw [followedBy_empty]
  · split
    · simp [followedBy]
    · simp [followedBy, push, StyledSpan.shift]

/-- Tokens are styled alike wherever they stand. -/
theorem appendTokens_eq_map (styles : StyleLanguage σ) (sheet : StyleSheet)
    (styled : StyledText σ) (d : Document) :
    styled.appendTokens styles sheet d = (ofDocument styles sheet d).map styled.followedBy := by
  induction d generalizing styled with
  | nil =>
    show Except.ok styled = Except.ok (styled.followedBy {})
    rw [followedBy_empty]
  | cons token rest ih =>
    rw [ofDocument, appendTokens, appendTokens]
    cases token.style styles sheet with
    | error fault => rfl
    | ok style =>
      show (styled.append styles token.text style).appendTokens styles sheet rest =
        (appendTokens styles sheet (append styles {} token.text style) rest).map styled.followedBy
      rw [ih, ih, append_eq_followedBy]
      cases ofDocument styles sheet rest with
      | error fault => rfl
      | ok later => exact congrArg Except.ok (followedBy_assoc _ _ _)

theorem appendTokens_append (styles : StyleLanguage σ) (sheet : StyleSheet)
    (styled : StyledText σ) (d e : Document) :
    styled.appendTokens styles sheet (d ++ e) =
      styled.appendTokens styles sheet d >>= fun styled => styled.appendTokens styles sheet e := by
  induction d generalizing styled with
  | nil => rfl
  | cons token rest ih =>
    rw [List.cons_append, appendTokens, appendTokens]
    cases token.style styles sheet with
    | error fault => rfl
    | ok style => exact ih (styled.append styles token.text style)

/-- Two documents may be styled one after the other. -/
theorem ofDocument_append (styles : StyleLanguage σ) (sheet : StyleSheet) (d e : Document) :
    ofDocument styles sheet (d ++ e) = do
      let styled ← ofDocument styles sheet d
      let later ← ofDocument styles sheet e
      return styled.followedBy later := by
  rw [ofDocument, appendTokens_append]
  simp only [appendTokens_eq_map _ _ _ e]
  rfl

theorem ofDocument_cons (styles : StyleLanguage σ) (sheet : StyleSheet) (token : Token)
    (rest : Document) :
    ofDocument styles sheet (token :: rest) =
      token.style styles sheet >>= fun style =>
        (ofDocument styles sheet rest).map (append styles {} token.text style).followedBy := by
  simp only [← appendTokens_eq_map]
  rfl

-- ═════════════════════════════════════════════════════════════════════════════
-- Tokens that cannot be read
-- ═════════════════════════════════════════════════════════════════════════════

theorem exists_style_eq_error_iff {sheet : StyleSheet} {token : Token} :
    (∃ fault, token.style styles sheet = .error fault) ↔ token.IsUnreadable styles sheet := by
  have hlink (style : Text) :
      (∃ fault, (styles.read style >>= fun style => return styles.linkedTo style token.target :
        Except MalformedStyle σ) = .error fault) ↔ styles.IsMalformed style := by
    unfold StyleLanguage.IsMalformed
    cases styles.read style with
    | error fault => rfl
    | ok style => simp [bind, Except.bind, pure, Except.pure]
  unfold Token.style Token.IsUnreadable
  cases token.role with
  | plain => simp
  | keyword => rfl
  | link =>
    cases token.bold with
    | false => exact hlink sheet.link
    | true => exact hlink sheet.name

/-- A document cannot be styled if and only if one of its tokens cannot be read. -/
theorem exists_ofDocument_eq_error_iff {sheet : StyleSheet} {d : Document} :
    (∃ fault, ofDocument styles sheet d = .error fault) ↔
      ∃ token ∈ d, token.IsUnreadable styles sheet := by
  induction d with
  | nil => simp [ofDocument, appendTokens]
  | cons token rest ih =>
    rw [ofDocument_cons]
    simp only [List.mem_cons, exists_eq_or_imp]
    rw [← ih, ← exists_style_eq_error_iff]
    cases token.style styles sheet with
    | error fault => simp [bind, Except.bind]
    | ok style => cases ofDocument styles sheet rest <;> simp [bind, Except.bind, Except.map]

end StyledText

open StyledText

-- ═════════════════════════════════════════════════════════════════════════════
-- Spans of tokens
-- ═════════════════════════════════════════════════════════════════════════════

theorem Token.span?_add (styles : StyleLanguage σ) (sheet : StyleSheet) (n offset : Nat)
    (token : Token) :
    token.span? styles sheet (n + offset) = (token.span? styles sheet offset).map (.shift n) := by
  unfold span?
  split
  · rfl
  · split
    · rfl
    · simp [StyledSpan.shift, Nat.add_assoc]

/-- What is appended with a token are the text that is kept of it and its span. -/
theorem StyledText.append_eq_of_style {sheet : StyleSheet} {token : Token} {style : σ}
    (h : token.style styles sheet = .ok style) :
    append styles {} token.text style =
      { text := kept token.text, spans := (token.span? styles sheet 0).toList } := by
  unfold append Token.span?
  rw [h]
  by_cases htext : token.text = []
  · simp [htext, kept]
  · by_cases hnull : styles.isNull style = true
    · simp [htext, hnull]
    · simp [htext, hnull, push]

theorem Token.eq_of_span?_eq_some {sheet : StyleSheet} {offset : Nat} {token : Token}
    {span : StyledSpan σ} (h : token.span? styles sheet offset = some span) :
    span.start = offset ∧ span.stop = offset + (kept token.text).length := by
  unfold span? at h
  split at h
  · exact absurd h (by simp)
  · obtain rfl := Option.some.inj (Option.ite_none_left_eq_some.1 h).2
    exact ⟨rfl, rfl⟩

namespace Document

variable {sheet : StyleSheet} {d : Document}

/-- Behind a token all spans move on by what is kept of it. -/
theorem spans_cons (styles : StyleLanguage σ) (sheet : StyleSheet) (token : Token)
    (rest : Document) :
    spans styles sheet (token :: rest) =
      (token.span? styles sheet 0).toList ++
        (spans styles sheet rest).map (.shift (kept token.text).length) := by
  have hrest : (rest.zipIdx 1).filterMap (fun (later, i) =>
        later.span? styles sheet (kept (plain ((token :: rest).take i))).length) =
      (spans styles sheet rest).map (.shift (kept token.text).length) := by
    rw [spans, List.zipIdx_succ, List.filterMap_map, List.map_filterMap]
    congr 1
    funext ⟨later, i⟩
    show later.span? styles sheet (kept (token.text ++ plain (rest.take i))).length = _
    rw [kept_append, List.length_append, Token.span?_add]
  rw [spans, List.filterMap_eq_flatMap_toList, List.zipIdx_cons, List.flatMap_cons,
    ← List.filterMap_eq_flatMap_toList, Nat.zero_add, hrest]
  rfl

/-- No span ends before it starts, or behind the text. -/
theorem le_of_mem_spans {span : StyledSpan σ} (h : span ∈ spans styles sheet d) :
    span.start ≤ span.stop ∧ span.stop ≤ (kept d.plain).length := by
  induction d generalizing span with
  | nil => exact absurd h List.not_mem_nil
  | cons token rest ih =>
    have hlength : (kept (plain (token :: rest))).length =
        (kept token.text).length + (kept (plain rest)).length := by
      rw [← List.length_append, ← kept_append]
      rfl
    rw [spans_cons, List.mem_append, List.mem_map] at h
    rcases h with h | ⟨later, hlater, rfl⟩
    · obtain ⟨hstart, hstop⟩ := token.eq_of_span?_eq_some (Option.mem_toList.1 h)
      omega
    · have hrest := ih hlater
      simp only [StyledSpan.shift]
      omega

/-- No span starts before an earlier one ends. -/
theorem pairwise_spans (styles : StyleLanguage σ) (sheet : StyleSheet) (d : Document) :
    (spans styles sheet d).Pairwise fun span later => span.stop ≤ later.start := by
  induction d with
  | nil => exact .nil
  | cons token rest ih =>
    rw [spans_cons, List.pairwise_append, List.pairwise_map]
    refine ⟨?_, ?_, ?_⟩
    · cases token.span? styles sheet 0 <;> simp
    · exact ih.imp fun hle => Nat.add_le_add_left hle _
    · intro span hspan moved hmoved
      obtain ⟨later, -, rfl⟩ := List.mem_map.1 hmoved
      obtain ⟨-, hstop⟩ := token.eq_of_span?_eq_some (Option.mem_toList.1 hspan)
      simp only [StyledSpan.shift]
      omega

end Document

namespace StyledText

/-- The spans of a styled document are those of its tokens. -/
theorem spans_ofDocument {sheet : StyleSheet} {d : Document} {styled : StyledText σ}
    (h : ofDocument styles sheet d = .ok styled) : styled.spans = d.spans styles sheet := by
  induction d generalizing styled with
  | nil =>
    obtain rfl : {} = styled := Except.ok.inj h
    rfl
  | cons token rest ih =>
    rw [ofDocument_cons] at h
    obtain ⟨style, hstyle, hrest⟩ := bind_eq_ok_iff.1 h
    cases hlater : ofDocument styles sheet rest with
    | error fault =>
      rw [hlater] at hrest
      exact absurd hrest (by simp [Except.map])
    | ok later =>
      rw [hlater, append_eq_of_style hstyle] at hrest
      obtain rfl := Except.ok.inj hrest
      rw [Document.spans_cons, ← ih hlater]
      rfl

/-- **Styling a document.** A document cannot be styled if and only if a style of one of its
tokens cannot be read, be there text in the token or not. Otherwise the text is what is kept
of the document, and each token with text whose style sets something has one span, from
what is kept of the earlier tokens up to the end of what is kept of itself; the spans
follow each other. Two documents together are styled as one behind the other. -/
theorem ofDocument_spans (styles : StyleLanguage σ) (sheet : StyleSheet) (d : Document) :
    ((∃ fault, ofDocument styles sheet d = .error fault) ↔
        ∃ token ∈ d, token.IsUnreadable styles sheet) ∧
      (∀ styled, ofDocument styles sheet d = .ok styled →
        styled.text = kept d.plain ∧
          styled.spans = d.zipIdx.filterMap (fun (token, i) =>
            token.span? styles sheet (kept (Document.plain (d.take i))).length) ∧
          (∀ span ∈ styled.spans, span.start ≤ span.stop ∧ span.stop ≤ styled.text.length) ∧
          styled.spans.Pairwise fun span later => span.stop ≤ later.start) ∧
      ∀ e, ofDocument styles sheet (d ++ e) = do
        let styled ← ofDocument styles sheet d
        let later ← ofDocument styles sheet e
        return styled.followedBy later := by
  refine ⟨exists_ofDocument_eq_error_iff, ?_, ofDocument_append styles sheet d⟩
  intro styled hstyled
  have htext : styled.text = kept d.plain := text_appendTokens hstyled
  rw [spans_ofDocument hstyled, htext]
  exact ⟨rfl, rfl, fun span hspan => Document.le_of_mem_spans hspan, d.pairwise_spans styles sheet⟩

/-- The bell is dropped, an empty token and a style that sets nothing have no span, and a
link is a style that sets something. -/
example :
    ofDocument Style.palette { keyword := "none".toList, name := [] }
        [.plain "a\x07b".toList, .keyword "->".toList, .reference [], .anchor "c".toList,
          { text := "\x08".toList, bold := true }] =
      .ok {
        text := "ab->c".toList
        spans := [
          { start := 4, stop := 5, style := { link := some "#c".toList } },
          { start := 5, stop := 5, style := { bold := some true } }] } := by
  decide +kernel

end StyledText

end PackageDocs
