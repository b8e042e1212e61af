import PackageDocs.Json.Basic
import PackageDocs.Text.Integer

/-!
# Lexemes of a data file

A data file is a sequence of lexemes with gaps of spaces, tabs and line ends between
them: brackets, commas, colons, quoted texts, numbers and the words for the other
values. Each lexeme is the longest one that the text starts with.

## Main definitions

- `Json.Lexeme`: what a file is made of
- `Json.readQuoted?`: the text up to its closing quote
- `Json.readNumber?`: the number at the start of a text
- `Json.lexemes?`: the lexemes of a file, if it consists of lexemes

## Design notes

A quoted text is read as code units first. Two neighbouring escapes may be the two
halves of one character; a half on its own stands for no character and is read as
U+FFFD.
-/

namespace PackageDocs

namespace Json

/-- A piece of a data file: punctuation, a quoted text, or any other value without
parts. -/
inductive Lexeme where
  | openList
  | closeList
  | openObject
  | closeObject
  | comma
  | colon
  | text (text : Text)
  | scalar (value : Json)
  deriving Repr

-- ═════════════════════════════════════════════════════════════════════════════
-- Quoted texts
-- ═════════════════════════════════════════════════════════════════════════════

/-- The value of a hexadecimal digit. -/
def hexValue? (c : Char) : Option Nat :=
  if '0' ≤ c ∧ c ≤ '9' then some (c.toNat - '0'.toNat)
  else if 'a' ≤ c ∧ c ≤ 'f' then some (c.toNat - 'a'.toNat + 10)
  else if 'A' ≤ c ∧ c ≤ 'F' then some (c.toNat - 'A'.toNat + 10)
  else none

/-- The code unit that four hexadecimal digits write. -/
def hexUnit? (a b c d : Char) : Option Nat := do
  let a ← hexValue? a
  let b ← hexValue? b
  let c ← hexValue? c
  let d ← hexValue? d
  return ((a * 16 + b) * 16 + c) * 16 + d

/-- The character that a backslash and one more character stand for. -/
def escaped? : Char → Option Char
  | '"' => some '"'
  | '\\' => some '\\'
  | '/' => some '/'
  | 'b' => some '\x08'
  | 'f' => some '\x0c'
  | 'n' => some '\n'
  | 'r' => some '\r'
  | 't' => some '\t'
  | _ => none

/-- The code units up to the closing quote, and the text behind it. Control
characters may not stand there as they are. -/
def readUnits? : Text → Option (List Nat × Text)
  | [] => none
  | '"' :: rest => some ([], rest)
  | '\\' :: 'u' :: a :: b :: c :: d :: rest => do
    let unit ← hexUnit? a b c d
    let (units, after) ← readUnits? rest
    return (unit :: units, after)
  | '\\' :: e :: rest => do
    let c ← escaped? e
    let (units, after) ← readUnits? rest
    return (c.toNat :: units, after)
  | c :: rest =>
    if c.toNat < 0x20 then none
    else do
      let (units, after) ← readUnits? rest
      return (c.toNat :: units, after)

/-- The first half of a character in two units. -/
def isLead (unit : Nat) : Bool :=
  0xD800 ≤ unit && unit ≤ 0xDBFF

/-- The second half of a character in two units. -/
def isTrail (unit : Nat) : Bool :=
  0xDC00 ≤ unit && unit ≤ 0xDFFF

/-- The character of a unit on its own. -/
def unitChar (unit : Nat) : Char :=
  if isLead unit || isTrail unit then '\ufffd' else Char.ofNat unit

/-- The text of the units, two halves side by side put together. -/
def ofUnits : List Nat → Text
  | [] => []
  | [unit] => [unitChar unit]
  | lead :: trail :: rest =>
    if isLead lead && isTrail trail then
      Char.ofNat (0x10000 + (lead - 0xD800) * 0x400 + (trail - 0xDC00)) :: ofUnits rest
    else unitChar lead :: ofUnits (trail :: rest)

/-- The text up to its closing quote, and what follows the quote. -/
def readQuoted? (t : Text) : Option (Text × Text) :=
  (readUnits? t).map fun (units, after) => (ofUnits units, after)

-- ═════════════════════════════════════════════════════════════════════════════
-- Numbers
-- ═════════════════════════════════════════════════════════════════════════════

/-- A number without sign, fraction and exponent, as it is written: a zero alone or
digits that start with no zero. -/
def wholeDigits (t : Text) : Text :=
  match t with
  | '0' :: _ => ['0']
  | _ => t.takeWhile Char.isDigit

/-- A fraction at the start of the text: a point and at least one digit. -/
def fractionDigits : Text → Text
  | '.' :: rest =>
    match rest.takeWhile Char.isDigit with
    | [] => []
    | digits => '.' :: digits
  | _ => []

/-- An exponent at the start of the text: the letter, perhaps a sign, and at least
one digit. -/
def exponentDigits : Text → Text
  | e :: rest =>
    if e = 'e' ∨ e = 'E' then
      let sign := match rest with
        | '+' :: _ => ['+']
        | '-' :: _ => ['-']
        | _ => []
      match (rest.drop sign.length).takeWhile Char.isDigit with
      | [] => []
      | digits => e :: sign ++ digits
    else []
  | [] => []

/-- The number at the start of the text, and what follows it; it is negative when its
sign was read before. A fraction or an exponent makes it a float. -/
def readUnsigned? (negative : Bool) (t : Text) : Option (Json × Text) :=
  let whole := wholeDigits t
  let behind := t.drop whole.length
  let fraction := fractionDigits behind
  let decimals := fraction ++ exponentDigits (behind.drop fraction.length)
  if whole.isEmpty then none
  else if decimals.isEmpty then
    let size : Int := Nat.ofDigitChars 10 whole 0
    some (.int (if negative then -size else size), behind)
  else
    some (.float ((if negative then ['-'] else []) ++ whole ++ decimals),
      behind.drop decimals.length)

/-- The number at the start of the text, and what follows it. A minus sign may stand
in front. -/
def readNumber? : Text → Option (Json × Text)
  | '-' :: rest => readUnsigned? true rest
  | t => readUnsigned? false t

-- ═════════════════════════════════════════════════════════════════════════════
-- Files
-- ═════════════════════════════════════════════════════════════════════════════

/-- The characters between lexemes. -/
def isGap (c : Char) : Bool :=
  c == ' ' || c == '\t' || c == '\n' || c == '\r'

/-- The words for values, with the values. -/
def literals : List (Text × Json) := [
  ("null".toList, .null),
  ("true".toList, .bool true),
  ("false".toList, .bool false),
  ("NaN".toList, .float "NaN".toList),
  ("Infinity".toList, .float "Infinity".toList),
  ("-Infinity".toList, .float "-Infinity".toList)]

/-- The word for a value at the start of the text, and what follows it. -/
def readLiteral? (t : Text) : Option (Json × Text) :=
  (literals.find? fun entry => entry.1.isPrefixOf t).map fun (word, value) =>
    (value, t.drop word.length)

/-- The lexeme that starts with `c` in front of `rest`, and what follows it. -/
def readLexeme? (c : Char) (rest : Text) : Option (Lexeme × Text) :=
  match c with
  | '[' => some (.openList, rest)
  | ']' => some (.closeList, rest)
  | '\x7b' => some (.openObject, rest)
  | '\x7d' => some (.closeObject, rest)
  | ',' => some (.comma, rest)
  | ':' => some (.colon, rest)
  | '"' => (readQuoted? rest).map fun (text, after) => (.text text, after)
  | _ =>
    ((readLiteral? (c :: rest)).or (readNumber? (c :: rest))).map fun (value, after) =>
      (.scalar value, after)

-- ═════════════════════════════════════════════════════════════════════════════
-- Every lexeme takes something from the text
-- ═════════════════════════════════════════════════════════════════════════════

theorem length_of_readUnits? {t : Text} {units : List Nat} {after : Text}
    (h : readUnits? t = some (units, after)) : after.length < t.length := by
  fun_induction readUnits? t generalizing units with
  | case1 => simp at h
  | case2 rest => simp at h; simp [h]
  | case3 a b c d rest ih =>
    simp only [Option.bind_eq_bind, Option.bind_eq_some_iff, Option.pure_def, Option.some.injEq,
      Prod.mk.injEq] at h
    obtain ⟨unit, -, ⟨later, tail⟩, hread, -, rfl⟩ := h
    have : tail.length < rest.length := ih hread
    simp only [List.length_cons]
    omega
  | case4 e rest _ ih =>
    simp only [Option.bind_eq_bind, Option.bind_eq_some_iff, Option.pure_def, Option.some.injEq,
      Prod.mk.injEq] at h
    obtain ⟨c, -, ⟨later, tail⟩, hread, -, rfl⟩ := h
    have : tail.length < rest.length := ih hread
    simp only [List.length_cons]
    omega
  | case5 => simp at h
  | case6 c rest _ _ _ _ ih =>
    simp only [Option.bind_eq_bind, Option.bind_eq_some_iff, Option.pure_def, Option.some.injEq,
      Prod.mk.injEq] at h
    obtain ⟨⟨later, tail⟩, hread, -, rfl⟩ := h
    have : tail.length < rest.length := ih hread
    simp only [List.length_cons]
    omega

theorem length_wholeDigits_le (t : Text) : (wholeDigits t).length ≤ t.length := by
  unfold wholeDigits
  split
  · simp
  · exact (List.takeWhile_sublist _).length_le

theorem length_of_readUnsigned? {negative : Bool} {t : Text} {value : Json} {after : Text}
    (h : readUnsigned? negative t = some (value, after)) : after.length < t.length := by
  have hfit := length_wholeDigits_le t
  simp only [readUnsigned?] at h
  split at h
  · simp at h
  · rename_i hwhole
    have hpos : 0 < (wholeDigits t).length := by
      simpa [List.length_pos_iff] using hwhole
    split at h <;>
    · simp only [Option.some.injEq, Prod.mk.injEq] at h
      obtain ⟨-, rfl⟩ := h
      simp only [List.length_drop]
      omega

theorem length_of_readNumber? {t : Text} {value : Json} {after : Text}
    (h : readNumber? t = some (value, after)) : after.length < t.length := by
  unfold readNumber? at h
  split at h
  · have := length_of_readUnsigned? h
    simp only [List.length_cons]
    omega
  · exact length_of_readUnsigned? h

theorem length_of_readLiteral? {t : Text} {value : Json} {after : Text}
    (h : readLiteral? t = some (value, after)) : after.length < t.length := by
  simp only [readLiteral?, Option.map_eq_some_iff, Prod.mk.injEq] at h
  obtain ⟨⟨word, v⟩, hfind, -, rfl⟩ := h
  have hword : word.isPrefixOf t := by simpa using List.find?_some hfind
  have hfit := (List.isPrefixOf_iff_prefix.mp hword).length_le
  have hpos : 0 < word.length := by
    have hmem := List.mem_of_find?_eq_some hfind
    have hall : ∀ entry ∈ literals, 0 < entry.1.length := by decide
    exact hall _ hmem
  simp only [List.length_drop]
  omega

theorem length_of_readLexeme? {c : Char} {rest : Text} {lexeme : Lexeme} {after : Text}
    (h : readLexeme? c rest = some (lexeme, after)) : after.length ≤ rest.length := by
  unfold readLexeme? at h
  split at h
  case h_7 =>
    simp only [readQuoted?, Option.map_map, Option.map_eq_some_iff, Function.comp_apply,
      Prod.mk.injEq] at h
    obtain ⟨⟨units, tail⟩, hread, -, rfl⟩ := h
    exact Nat.le_of_lt (length_of_readUnits? hread)
  case h_8 =>
    simp only [Option.map_eq_some_iff, Option.or_eq_some_iff, Prod.mk.injEq] at h
    obtain ⟨⟨value, tail⟩, hread, -, rfl⟩ := h
    rcases hread with hread | ⟨-, hread⟩
    · exact Nat.le_of_lt_succ (length_of_readLiteral? hread)
    · exact Nat.le_of_lt_succ (length_of_readNumber? hread)
  all_goals
    simp only [Option.some.injEq, Prod.mk.injEq] at h
    simp [h.2]

/-- The lexemes of the text, in order, if it consists of lexemes and gaps. -/
def lexemes? : Text → Option (List Lexeme)
  | [] => some []
  | c :: rest =>
    if isGap c then lexemes? rest
    else
      match h : readLexeme? c rest with
      | none => none
      | some (lexeme, after) =>
        have := length_of_readLexeme? h
        (lexemes? after).map (lexeme :: ·)
termination_by t => t.length

end Json

end PackageDocs
