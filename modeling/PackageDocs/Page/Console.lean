import PackageDocs.Style.Styled

/-!
# Consoles

A console shows one thing after the other. Titles and lines are written in markup, which
the console reads; a text in malformed markup is refused, and nothing of it is shown.
Markdown and styled text hold no markup.

## Main definitions

- `Event`: one thing asked of a console
- `MalformedMarkup`: why a title or a line is not shown
- `Console`: the styles that a console can show, and the markup that it refuses
- `Console.Takes`: the console shows the markup

## Design notes

How a console reads markup and styles is its own matter. Both depend on the text alone.
-/

namespace PackageDocs

/-- One thing asked of a console: to show something, or to write in HTML what it showed.
Titles and lines carry markup for their styles. -/
inductive Event (σ : Type) where
  | rule (title : Text)
  | markdown (text : Text)
  | styled (text : StyledText σ)
  | padded (top right bottom left : Int) (markdown : Text)
  | line (markup : Text)
  | saveHtml (path : Text)
  deriving Repr, DecidableEq

/-- A text that was to be read as markup and is none, as the console words it. -/
structure MalformedMarkup where
  text : Text
  deriving Repr, DecidableEq

/-- A console that shows the styles `σ`. -/
structure Console (σ : Type) where
  /-- The styles that the console can show. -/
  styles : StyleLanguage σ
  /-- Why the console does not show the markup, if it does not. -/
  refusal? : Text → Option MalformedMarkup

/-- The console shows a title or a line with this markup. -/
def Console.Takes {σ : Type} (console : Console σ) (markup : Text) : Prop :=
  console.refusal? markup = none

instance {σ : Type} (console : Console σ) : DecidablePred console.Takes := fun markup =>
  inferInstanceAs (Decidable (console.refusal? markup = none))

end PackageDocs
