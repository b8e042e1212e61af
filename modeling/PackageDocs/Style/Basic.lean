import PackageDocs.Text.Basic

/-!
# Styles of a palette

A style sets some properties of a piece of text and leaves the others alone. Its colors
are those of a small palette.

## Main definitions

- `Color`, `Emphasis`: what can be set, apart from a link
- `Style`: the properties that are set
- `Style.isNull`: nothing is set
-/

namespace PackageDocs

/-- A color of the palette. -/
inductive Color where
  | red
  | green
  | blue
  | cyan
  | white
  | grey50
  deriving Repr, DecidableEq

namespace Color

/-- All colors of the palette. -/
def all : List Color := [.red, .green, .blue, .cyan, .white, .grey50]

/-- The name of the color. -/
def name : Color → Text
  | .red => "red".toList
  | .green => "green".toList
  | .blue => "blue".toList
  | .cyan => "cyan".toList
  | .white => "white".toList
  | .grey50 => "grey50".toList

/-- The color of a name. -/
def ofName? (name : Text) : Option Color :=
  all.find? fun color => color.name == name

end Color

/-- A property of text that is on or off. -/
inductive Emphasis where
  | bold
  | italic
  | underline
  | dim
  deriving Repr, DecidableEq

namespace Emphasis

/-- All the ways to emphasize text. -/
def all : List Emphasis := [.bold, .italic, .underline, .dim]

/-- The name of the emphasis. -/
def name : Emphasis → Text
  | .bold => "bold".toList
  | .italic => "italic".toList
  | .underline => "underline".toList
  | .dim => "dim".toList

/-- The emphasis of a name. -/
def ofName? (name : Text) : Option Emphasis :=
  all.find? fun emphasis => emphasis.name == name

end Emphasis

/-- The properties that are set; the others are left alone. -/
structure Style where
  color : Option Color := none
  background : Option Color := none
  bold : Option Bool := none
  italic : Option Bool := none
  underline : Option Bool := none
  dim : Option Bool := none
  link : Option Text := none
  deriving Repr, DecidableEq

namespace Style

/-- The style with one emphasis switched on or off. -/
def set (style : Style) (emphasis : Emphasis) (on : Bool) : Style :=
  match emphasis with
  | .bold => { style with bold := some on }
  | .italic => { style with italic := some on }
  | .underline => { style with underline := some on }
  | .dim => { style with dim := some on }

/-- Nothing is set. -/
def isNull (style : Style) : Bool :=
  style == {}

/-- The style together with a link; an empty target is no link. -/
def linkedTo (style : Style) (target : Option Text) : Style :=
  match target with
  | none | some [] => style
  | some t => { style with link := some t }

end Style

end PackageDocs
