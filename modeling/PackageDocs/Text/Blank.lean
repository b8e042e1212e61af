import PackageDocs.Text.Basic

/-!
# Blank characters and words

The blank characters are those that separate words: the Unicode white space
together with the four separators U+001C to U+001F. The zero width space and the
byte order mark are not blank.

## Main definitions

- `Text.isBlank`: the class of blank characters
- `Text.trim`: a text without its outer blanks
- `Text.words`: the maximal runs of other characters
- `Text.squash`: the words put back together with single spaces
-/

namespace PackageDocs

namespace Text

/-- The code points of the blank characters. -/
def blankRanges : List (Nat × Nat) := [
  (0x9, 0xD), (0x1C, 0x20), (0x85, 0x85), (0xA0, 0xA0), (0x1680, 0x1680), (0x2000, 0x200A),
  (0x2028, 0x2029), (0x202F, 0x202F), (0x205F, 0x205F), (0x3000, 0x3000)]

/-- Blank characters separate words and are dropped by `trim`. -/
def isBlank (c : Char) : Bool :=
  inRanges blankRanges c

/-- The text without the characters of a class at its two ends. -/
def trimWhere (drop : Char → Bool) (t : Text) : Text :=
  ((t.dropWhile drop).reverse.dropWhile drop).reverse

/-- The text without the blanks at its two ends. -/
def trim (t : Text) : Text :=
  trimWhere isBlank t

/-- The maximal runs of characters that are not blank, in order. -/
def words (t : Text) : List Text :=
  (pieces isBlank t).filter fun word => !word.isEmpty

/-- The text with every run of blanks written as one space and none at its ends. -/
def squash (t : Text) : Text :=
  [' '].intercalate (words t)

end Text

end PackageDocs
