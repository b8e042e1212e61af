import PackageDocs.Text.Printable

/-!
# Quoted text

A text shown between quotes inside a message: single quotes, or double quotes when
the text holds a single quote and no double one. The quote, the backslash and the
unprintable characters are escaped, the latter by the shortest of the three
hexadecimal forms that their code point fits.

## Main definitions

- `Text.hexDigits`: a number in lower-case hexadecimal with a least number of digits
- `Text.quoted`: the text between quotes
-/

namespace PackageDocs

namespace Text

/-- The number in lower-case hexadecimal, with zeros in front up to `width` digits. -/
def hexDigits (width n : Nat) : Text :=
  let digits := Nat.toDigits 16 n
  List.replicate (width - digits.length) '0' ++ digits

/-- The quote to put around the text. -/
def quoteFor (t : Text) : Char :=
  if t.contains '\'' && !t.contains '"' then '"' else '\''

/-- A character as it stands between the given quotes. -/
def quotedChar (quote c : Char) : Text :=
  if c = quote || c = '\\' then ['\\', c]
  else if c = '\t' then ['\\', 't']
  else if c = '\n' then ['\\', 'n']
  else if c = '\r' then ['\\', 'r']
  else if isPrintable c then [c]
  else if c.toNat < 0x100 then '\\' :: 'x' :: hexDigits 2 c.toNat
  else if c.toNat < 0x10000 then '\\' :: 'u' :: hexDigits 4 c.toNat
  else '\\' :: 'U' :: hexDigits 8 c.toNat

/-- The text between quotes, with escapes where they are needed. -/
def quoted (t : Text) : Text :=
  let quote := quoteFor t
  quote :: t.flatMap (quotedChar quote) ++ [quote]

end Text

end PackageDocs
