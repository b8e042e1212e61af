/-!
# Frames

Signatures are laid out in a frame: an inline signature is shorter than its width, and
further lines start with its indent. Widths and indents are asked for as integers of
any size, and not every indent gives a frame.

## Main definitions

- `Frame`: a width and an indent
- `Width`: the width that is asked for
- `LayoutFault`: why an entry cannot be laid out
- `Frame.spaces`: the number of spaces for an indent

## Design notes

A width is only compared with, so it may be any integer. An indent is written out: it
has to be a machine integer of 64 bits, and memory needs room for the spaces. The first
of the two is checked first. How much room there is depends on the machine, so it is
given from outside.
-/

namespace PackageDocs

/-- The frame that signatures are laid out in: an inline signature is shorter than
`width`, and further lines start with `indent` spaces. -/
structure Frame where
  width : Int
  indent : Nat
  deriving Repr, DecidableEq

/-- The width that is asked for: the usual one, a number, or a width that was left
out. -/
inductive Width where
  | usual
  | columns (n : Int)
  | missing
  deriving Repr, DecidableEq

/-- The usual width, unless a number is given. -/
def Width.ofOption : Option Int → Width
  | none => .usual
  | some n => .columns n

/-- Why an entry cannot be laid out: the indent is no machine integer, the indent is too
wide for memory, or the width was left out. -/
inductive LayoutFault where
  | indentOverflow
  | indentTooWide
  | missingWidth
  deriving Repr, DecidableEq

namespace Frame

/-- The number of machine integers that are not negative. -/
def machineBound : Int := 0x8000000000000000

/-- The number of spaces for an indent; a negative indent has none. No run of spaces may
be wider than `room`, if memory is limited. -/
def spaces (room : Option Nat) (indent : Int) : Except LayoutFault Nat :=
  if indent < -machineBound ∨ machineBound ≤ indent then .error .indentOverflow
  else if room.any (· < indent.toNat) then .error .indentTooWide
  else .ok indent.toNat

end Frame

end PackageDocs
