/-!
# Text

A text is a list of Unicode characters: lengths, offsets and cuts all count
characters. Every other module works on texts; strings appear only as literals
and at the outer edge, where bytes are read and written.

## Main definitions

- `Text`: the list of characters
- `Text.pieces`: a text cut at every character of a class
- `Text.inRanges`: membership of a character in a table of code point ranges
- `Text.atMost`: the order of texts by code point

## Design notes

`pieces` is never empty: a text without a separator is one piece, the empty text
is one empty piece. Putting pieces back together is `List.intercalate`.
-/

namespace PackageDocs

/-- A sequence of Unicode characters. -/
abbrev Text := List Char

namespace Text

/-- The text cut at every character that satisfies `cut`; those characters are dropped. -/
def pieces (cut : Char → Bool) : Text → List Text
  | [] => [[]]
  | c :: rest =>
    if cut c then [] :: pieces cut rest
    else
      match pieces cut rest with
      | [] => [[c]]
      | piece :: later => (c :: piece) :: later

/-- Whether the code point of `c` lies in one of the ranges, both ends included. -/
def inRanges (ranges : List (Nat × Nat)) (c : Char) : Bool :=
  ranges.any fun range => range.1 ≤ c.toNat && c.toNat ≤ range.2

/-- The order of texts by code point: the first difference decides, and a text comes
before its continuations. -/
def atMost : Text → Text → Bool
  | [], _ => true
  | _ :: _, [] => false
  | a :: s, b :: t => a.toNat < b.toNat || (a == b && atMost s t)

/-- There is always a first piece. -/
theorem pieces_ne_nil (cut : Char → Bool) (t : Text) : pieces cut t ≠ [] := by
  induction t with
  | nil => simp [pieces]
  | cons c rest ih =>
    unfold pieces
    split
    · simp
    · split <;> simp

end Text

end PackageDocs
