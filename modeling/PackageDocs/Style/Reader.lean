import PackageDocs.Style.Basic
import PackageDocs.Style.Language
import PackageDocs.Text.Blank

/-!
# The language of the palette

A style of the palette is written as words: colors, `on` with a background color, emphases, and
`not` with an emphasis to switch off. Later words win over earlier ones. The empty
text and the single word `none` set nothing.

## Main definitions

- `Style.ofWords?`: the style that words write
- `Style.read`: the style that a text writes
- `Style.palette`: the language of these styles

## Design notes

Words may be in letters of either case, except the emphasis behind `not` and the
word `none`. All the words of the language are ASCII, so it is enough to lower the
ASCII letters.
-/

namespace PackageDocs

namespace Style

/-- The word in lower case. -/
def lower (word : Text) : Text :=
  word.map Char.toLower

/-- The style with the property that a single word sets: an emphasis or a color. -/
def setWord? (style : Style) (word : Text) : Option Style :=
  match Emphasis.ofName? word with
  | some emphasis => some (style.set emphasis true)
  | none => (Color.ofName? word).map fun color => { style with color := some color }

/-- The style with the properties that the words set, the later ones over the
earlier ones. -/
def ofWords? (style : Style) : List Text → Option Style
  | [] => some style
  | word :: rest =>
    if lower word = "on".toList then
      match rest with
      | [] => none
      | name :: later =>
        (Color.ofName? (lower name)).bind fun color =>
          ofWords? { style with background := some color } later
    else if lower word = "not".toList then
      match rest with
      | [] => none
      | name :: later =>
        (Emphasis.ofName? name).bind fun emphasis =>
          ofWords? (style.set emphasis false) later
    else (style.setWord? (lower word)).bind fun next => next.ofWords? rest

/-- The style that the text writes. -/
def read (t : Text) : Except MalformedStyle Style :=
  if Text.trim t = "none".toList then .ok {}
  else
    match ofWords? {} (Text.words t) with
    | some style => .ok style
    | none => .error { text := t }

/-- The styles of the palette. -/
def palette : StyleLanguage Style where
  read := read
  plain bold := { bold := if bold then some true else none }
  linkedTo := linkedTo
  isNull := isNull

end Style

end PackageDocs
