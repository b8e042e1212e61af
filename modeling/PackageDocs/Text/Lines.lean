import PackageDocs.Text.Basic

/-!
# Lines

A line ends at a line feed, a carriage return, the pair of the two, a vertical
tab, a form feed, U+001C to U+001E, U+0085, U+2028 or U+2029. A break at the very
end of a text opens no further line.

## Main definitions

- `Text.isLineBreak`: the characters that end a line
- `Text.lines`: the lines of a text without their breaks
-/

namespace PackageDocs

namespace Text

/-- The characters that end a line. -/
def isLineBreak (c : Char) : Bool :=
  inRanges [(0xA, 0xD), (0x1C, 0x1E), (0x85, 0x85), (0x2028, 0x2029)] c

/-- The lines of the text, without the breaks that end them. -/
def lines : Text → List Text
  | [] => []
  | '\r' :: '\n' :: rest => [] :: lines rest
  | c :: rest =>
    if isLineBreak c then [] :: lines rest
    else
      match lines rest with
      | [] => [[c]]
      | line :: later => (c :: line) :: later

end Text

end PackageDocs
