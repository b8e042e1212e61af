import PackageDocs.Text.Basic

/-!
# Scanning bracketed text

A scan reads a text character by character, counts the open parentheses and braces,
and collects the characters into chunks. What closes a chunk is up to the rule that
the scan follows; the brackets are counted alike under every rule.

## Main definitions

- `Scan`: the depths, the chunk being collected and the chunks closed so far
- `Scan.read`: one character into the current chunk
- `Scan.close`: the current chunk ends here
- `Scan.Rule`, `Scan.step`: the three ways to cut, and one character under each
- `Scan.run`: a whole text
- `Scan.strays`: the closing brackets that had no partner

## Design notes

At depth zero a closing bracket has no partner: it stays in the text and leaves the
depth at zero. A scan may go on from any state, also from one with a depth below zero;
there brackets are counted as everywhere else.
-/

namespace PackageDocs

/-- The state of a scan: open parentheses and braces, the chunk being collected, the
chunks closed before it, and whether the cutting is over. -/
structure Scan where
  parens : Int := 0
  braces : Int := 0
  current : Text := []
  chunks : List Text := []
  finished : Bool := false
  deriving Repr, DecidableEq

namespace Scan

-- ═════════════════════════════════════════════════════════════════════════════
-- One character
-- ═════════════════════════════════════════════════════════════════════════════

/-- A scan before its first character. -/
def fresh : Scan := {}

/-- No bracket is open. -/
def atTop (s : Scan) : Bool :=
  s.parens == 0 && s.braces == 0

/-- The current chunk ends here and a new one begins. -/
def close (s : Scan) : Scan :=
  { s with current := [], chunks := s.chunks ++ [s.current] }

/-- The depth behind a closing bracket; it stays at zero. -/
def closed (depth : Int) : Int :=
  if depth = 0 then 0 else depth - 1

/-- The number of open parentheses after `c`. -/
def parensAfter (depth : Int) (c : Char) : Int :=
  if c = '(' then depth + 1 else if c = ')' then closed depth else depth

/-- The number of open braces after `c`. -/
def bracesAfter (depth : Int) (c : Char) : Int :=
  if c = '{' then depth + 1 else if c = '}' then closed depth else depth

/-- The character joins the current chunk and is counted if it is a bracket. -/
def read (s : Scan) (c : Char) : Scan :=
  { s with
    parens := parensAfter s.parens c
    braces := bracesAfter s.braces c
    current := s.current ++ [c] }

/-- The character closes a bracket that is not open. -/
def isStray (s : Scan) (c : Char) : Bool :=
  (c == ')' && s.parens == 0) || (c == '}' && s.braces == 0)

-- ═════════════════════════════════════════════════════════════════════════════
-- Cutting rules
-- ═════════════════════════════════════════════════════════════════════════════

/-- The character that stands for an arrow between arguments. -/
def arrowMark : Char := '\x00'

/-- What ends a chunk: nothing, an arrow outside brackets, or the commas and the
closing brace of a record. -/
inductive Rule where
  | whole
  | arguments
  | record
  deriving Repr, DecidableEq

/-- Outside brackets an arrow mark ends the chunk and is dropped. -/
def readArgument (s : Scan) (c : Char) : Scan :=
  if c = arrowMark ∧ s.atTop then s.close else s.read c

/-- A comma of the outermost record opens a new chunk, and the brace that closes the
record ends its last one; after that nothing is cut. -/
def readRecord (s : Scan) (c : Char) : Scan :=
  if s.finished then s.read c
  else if c = ',' ∧ s.parens = 0 ∧ s.braces = 1 then s.close.read c
  else if c = '}' ∧ s.braces = 1 then { (s.read c).close with finished := true }
  else s.read c

/-- One character under the rule. -/
def step : Rule → Scan → Char → Scan
  | .whole => read
  | .arguments => readArgument
  | .record => readRecord

/-- The whole text under the rule. -/
def run (rule : Rule) (s : Scan) (t : Text) : Scan :=
  t.foldl (step rule) s

-- ═════════════════════════════════════════════════════════════════════════════
-- Observing a scan
-- ═════════════════════════════════════════════════════════════════════════════

/-- The states after each of the characters. -/
def states (rule : Rule) (s : Scan) : Text → List Scan
  | [] => []
  | c :: rest => step rule s c :: states rule (step rule s c) rest

/-- The closing brackets without a partner, each with the chunk collected before it. -/
def strays (rule : Rule) (s : Scan) : Text → List (Char × Text)
  | [] => []
  | c :: rest =>
    if s.isStray c then (c, s.current) :: strays rule (step rule s c) rest
    else strays rule (step rule s c) rest

end Scan

end PackageDocs
