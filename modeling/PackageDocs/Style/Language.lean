import PackageDocs.Text.Basic

/-!
# Languages of styles

Styles are written as texts. What a style is, and which texts write one, is the matter of
the display that shows them; a document only says which styles it needs.

## Main definitions

- `MalformedStyle`: why a text is not read as a style
- `StyleLanguage`: the styles of a display
- `StyleLanguage.IsMalformed`: a text that writes no style

## Design notes

Reading a style depends on its text alone, and a text that writes no style is the only
fault there is.
-/

namespace PackageDocs

/-- A text that was to be read as a style and is none, as the display words it. -/
structure MalformedStyle where
  text : Text
  deriving Repr, DecidableEq

/-- The styles of a display. -/
structure StyleLanguage (σ : Type) where
  /-- The style that a text writes. -/
  read : Text → Except MalformedStyle σ
  /-- The style of plain text, bold or in no style. -/
  plain : Bool → σ
  /-- The style together with a link to a target. -/
  linkedTo : σ → Option Text → σ
  /-- The style sets nothing. -/
  isNull : σ → Bool

/-- The text writes no style. -/
def StyleLanguage.IsMalformed {σ : Type} (styles : StyleLanguage σ) (t : Text) : Prop :=
  ∃ fault, styles.read t = .error fault

end PackageDocs
