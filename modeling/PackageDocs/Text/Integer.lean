import PackageDocs.Text.Blank

/-!
# Integers in text

An integer is written with decimal digits of any script, an optional sign in front
and, between two digits, an optional underscore. Blanks around it are allowed,
apart from the separators U+001C to U+001F; anything else makes the text no integer.

## Main definitions

- `Text.digitValue?`: the value of a decimal digit of any script
- `Text.readInteger?`: the integer that a text writes, if it writes one
- `Text.ofNat`, `Text.ofInt`: a number written with the digits `0` to `9`
-/

namespace PackageDocs

namespace Text

-- ═════════════════════════════════════════════════════════════════════════════
-- Digits
-- ═════════════════════════════════════════════════════════════════════════════

/-- The code points of the zeros; the digits one to nine follow each of them directly. -/
def decimalZeros : List Nat := [
  0x30, 0x660, 0x6F0, 0x7C0, 0x966, 0x9E6, 0xA66, 0xAE6, 0xB66, 0xBE6, 0xC66, 0xCE6, 0xD66, 0xDE6,
  0xE50, 0xED0, 0xF20, 0x1040, 0x1090, 0x17E0, 0x1810, 0x1946, 0x19D0, 0x1A80, 0x1A90, 0x1B50,
  0x1BB0, 0x1C40, 0x1C50, 0xA620, 0xA8D0, 0xA900, 0xA9D0, 0xA9F0, 0xAA50, 0xABF0, 0xFF10, 0x104A0,
  0x10D30, 0x11066, 0x110F0, 0x11136, 0x111D0, 0x112F0, 0x11450, 0x114D0, 0x11650, 0x116C0,
  0x11730, 0x118E0, 0x11950, 0x11C50, 0x11D50, 0x11DA0, 0x16A60, 0x16AC0, 0x16B50, 0x1D7CE,
  0x1D7D8, 0x1D7E2, 0x1D7EC, 0x1D7F6, 0x1E140, 0x1E2F0, 0x1E950, 0x1FBF0]

/-- The value of a decimal digit of any script. -/
def digitValue? (c : Char) : Option Nat :=
  (decimalZeros.find? fun start => start ≤ c.toNat && c.toNat < start + 10).map (c.toNat - ·)

-- ═════════════════════════════════════════════════════════════════════════════
-- Reading
-- ═════════════════════════════════════════════════════════════════════════════

/-- Reads on after a digit, with `value` for the digits so far: the end, one more digit,
or an underscore and one more digit. -/
def readDigits? (value : Nat) : Text → Option Nat
  | [] => some value
  | '_' :: c :: rest => (digitValue? c).bind fun digit => readDigits? (10 * value + digit) rest
  | c :: rest => (digitValue? c).bind fun digit => readDigits? (10 * value + digit) rest

/-- The number that a non-empty run of digits writes. -/
def readNatural? : Text → Option Nat
  | [] => none
  | c :: rest => (digitValue? c).bind fun digit => readDigits? digit rest

/-- The blanks that may stand around an integer. -/
def isMargin (c : Char) : Bool :=
  isBlank c && !inRanges [(0x1C, 0x1F)] c

/-- The integer that the text writes, blanks around it aside. -/
def readInteger? (t : Text) : Option Int :=
  match trimWhere isMargin t with
  | '-' :: digits => (readNatural? digits).map fun n => -(n : Int)
  | '+' :: digits => (readNatural? digits).map fun n => (n : Int)
  | digits => (readNatural? digits).map fun n => (n : Int)

-- ═════════════════════════════════════════════════════════════════════════════
-- Writing
-- ═════════════════════════════════════════════════════════════════════════════

/-- The number in decimal digits. -/
def ofNat (n : Nat) : Text :=
  Nat.toDigits 10 n

/-- The integer in decimal digits, with a minus sign in front of a negative one. -/
def ofInt : Int → Text
  | .ofNat n => ofNat n
  | .negSucc n => '-' :: ofNat (n + 1)

end Text

end PackageDocs
