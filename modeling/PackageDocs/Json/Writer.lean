import PackageDocs.Json.Basic
import PackageDocs.Text.Integer
import PackageDocs.Text.Quoted

/-!
# Writing a data file

Every item of a list and every field of an object stands on a line of its own, two
spaces deeper than the brackets around it. Empty lists and objects are a pair of
brackets. In texts, quotes, backslashes and control characters are escaped; all other
characters are written as they are.

## Main definitions

- `Json.escape`: a character of a text
- `Json.write`: a value
-/

namespace PackageDocs

namespace Json

/-- A character inside a quoted text. -/
def escape (c : Char) : Text :=
  if c = '"' then ['\\', '"']
  else if c = '\\' then ['\\', '\\']
  else if c = '\n' then ['\\', 'n']
  else if c = '\r' then ['\\', 'r']
  else if c = '\t' then ['\\', 't']
  else if c = '\x08' then ['\\', 'b']
  else if c = '\x0c' then ['\\', 'f']
  else if c.toNat < 0x20 then '\\' :: 'u' :: Text.hexDigits 4 c.toNat
  else [c]

/-- The text between quotes. -/
def writeText (t : Text) : Text :=
  '"' :: t.flatMap escape ++ ['"']

/-- A new line, `depth` brackets deep. -/
def newline (depth : Nat) : Text :=
  '\n' :: List.replicate (2 * depth) ' '

mutual

/-- The value, on a line that is `depth` brackets deep. -/
def writeAt (depth : Nat) : Json → Text
  | .null => "null".toList
  | .bool true => "true".toList
  | .bool false => "false".toList
  | .int n => Text.ofInt n
  | .float literal => literal
  | .str text => writeText text
  | .arr [] => ['[', ']']
  | .arr (item :: items) =>
    '[' :: newline (depth + 1) ++ writeAt (depth + 1) item ++ writeItems (depth + 1) items ++
      newline depth ++ [']']
  | .obj [] => ['\x7b', '\x7d']
  | .obj ((key, value) :: fields) =>
    '\x7b' :: newline (depth + 1) ++ writeText key ++ [':', ' '] ++ writeAt (depth + 1) value ++
      writeFields (depth + 1) fields ++ newline depth ++ ['\x7d']

/-- The items behind the first, each with a comma in front. -/
def writeItems (depth : Nat) : List Json → Text
  | [] => []
  | item :: items => ',' :: newline depth ++ writeAt depth item ++ writeItems depth items

/-- The fields behind the first, each with a comma in front. -/
def writeFields (depth : Nat) : List (Text × Json) → Text
  | [] => []
  | (key, value) :: fields =>
    ',' :: newline depth ++ writeText key ++ [':', ' '] ++ writeAt depth value ++
      writeFields depth fields

end

/-- The file that holds the value. -/
def write (value : Json) : Text :=
  writeAt 0 value

end Json

end PackageDocs
