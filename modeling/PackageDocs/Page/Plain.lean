import PackageDocs.Page.Display
import PackageDocs.Style.Reader

/-!
# Plain pages

What is shown on the console, for displays without styles: as plain text, and as a
plain document in HTML.

## Main definitions

- `Console.plain`: a console without styles
- `Event.plain`: an event as text
- `htmlDocument`: events as an HTML document
-/

namespace PackageDocs

/-- A console that knows the styles of the palette, and takes whatever stands in markup. -/
def Console.plain : Console Style where
  styles := Style.palette
  refusal? _ := none

/-- The text between the tags at the two ends of a line. -/
def untagged (markup : Text) : Text :=
  let inner := (markup.dropWhile (· != ']')).drop 1
  ((inner.reverse.dropWhile (· != '[')).drop 1).reverse

variable {σ : Type}

/-- The event as text; saving a file shows nothing. -/
def Event.plain : Event σ → Text
  | .rule title => "== ".toList ++ untagged title ++ " ==".toList
  | .markdown text => text
  | .styled text => text.text
  | .padded _ _ _ left text =>
    let margin := List.replicate left.toNat ' '
    ['\n'].intercalate ((Text.lines text).map fun line => margin ++ line) ++ ['\n']
  | .line markup => untagged markup
  | .saveHtml _ => []

/-- The events in HTML, one below the other. -/
def htmlDocument (events : List (Event σ)) : Text :=
  let escape := fun c : Char =>
    if c = '<' then "&lt;".toList else if c = '>' then "&gt;".toList
    else if c = '&' then "&amp;".toList else [c]
  let body := ['\n'].intercalate (events.map fun event => event.plain.flatMap escape)
  "<!DOCTYPE html>\n<meta charset=\"utf-8\">\n<pre>\n".toList ++ body ++ "\n</pre>\n".toList

end PackageDocs
