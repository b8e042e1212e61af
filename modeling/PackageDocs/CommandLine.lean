import PackageDocs.Entry.Frame
import PackageDocs.Text.Integer

/-!
# The command line

The options are `--docs`, `--module`, `--width`, `--html` and `--json`, which take a
value, and `--verbose`, `--help` and `-h`, which take none. A long option may be
shortened as long as one option is meant, and its value may follow as the next word
or behind an equals sign. Two hyphens behind an equals sign are no value: the option
is given without one. Of a repeated option the last one counts. There are no other
arguments, and `--docs` must be given.

## Main definitions

- `Arguments`: what a command line asks for
- `CommandLine.Meaning`: a run, a request for help, or a misuse
- `CommandLine.Item`, `CommandLine.item?`: what a single word is
- `CommandLine.read`: the meaning of a command line

## Design notes

Every word is classified before the first one is acted upon, so an ambiguous option
is a misuse wherever it stands. After that the words are taken from the left: help
ends the reading, and so does the first misuse. A surplus word or a missing `--docs`
is noticed only at the end.
-/

namespace PackageDocs

/-- What a command line asks for. There is no path to the documentation if `--docs` is
given without a value. -/
structure Arguments where
  docs : Option Text
  module : Option Text := none
  width : Width := .usual
  html : Option Text := none
  json : Option Text := none
  verbose : Bool := false
  deriving Repr, DecidableEq

namespace CommandLine

/-- What a command line means. -/
inductive Meaning where
  | run (arguments : Arguments)
  | help
  | misuse
  deriving Repr, DecidableEq

/-- The options. -/
inductive Choice where
  | help
  | docs
  | module
  | width
  | html
  | json
  | verbose
  deriving Repr, DecidableEq

/-- The long options with the words for them. -/
def options : List (Text × Choice) := [
  ("--help".toList, .help),
  ("--docs".toList, .docs),
  ("--module".toList, .module),
  ("--width".toList, .width),
  ("--html".toList, .html),
  ("--json".toList, .json),
  ("--verbose".toList, .verbose)]

/-- A word on the command line: a value, an option with the value attached to it, an
option with an attachment it cannot have, or a word that means nothing. -/
inductive Item where
  | value
  | option (choice : Choice) (attached : Option Text)
  | broken
  | surplus
  deriving Repr, DecidableEq

-- ═════════════════════════════════════════════════════════════════════════════
-- Single words
-- ═════════════════════════════════════════════════════════════════════════════

/-- The option with an attached value, if it takes one. -/
def optionWith (choice : Choice) (attached : Text) : Item :=
  match choice with
  | .help | .verbose => .broken
  | _ => .option choice (some attached)

/-- The word `-h` with letters attached to it: each of them is an option again, and
there is no other option of one letter. -/
def helpWith (letters : Text) : Item :=
  if !letters.isEmpty && letters.all (· == 'h') then .option .help none else .broken

/-- The parts of the word before and after its first equals sign, if it has one. -/
def cutEquals (word : Text) : Text × Option Text :=
  match word.dropWhile (· != '=') with
  | [] => (word, none)
  | _ :: after => (word.takeWhile (· != '='), some after)

/-- The options that a beginning of a long option may mean. -/
def completions (start : Text) : List Choice :=
  (options.filter fun entry => start.isPrefixOf entry.1).map Prod.snd

/-- Decimal digits and nothing else. -/
def isDigits (t : Text) : Bool :=
  t.all fun c => (Text.digitValue? c).isSome

/-- A negative number, with or without a fraction; a line feed may follow. -/
def isNegativeNumber : Text → Bool
  | '-' :: rest =>
    let number := if rest.getLast? = some '\n' then rest.dropLast else rest
    match Text.pieces (· == '.') number with
    | [whole] => !whole.isEmpty && isDigits whole
    | [whole, fraction] => isDigits whole && !fraction.isEmpty && isDigits fraction
    | _ => false
  | _ => false

/-- A word with a hyphen in front that is no option: negative numbers and words with
a space are values. -/
def strayItem (word : Text) : Item :=
  if isNegativeNumber word || word.contains ' ' then .value else .surplus

/-- What a word with two hyphens in front is, unless it may mean several options. -/
def longItem? (word : Text) : Option Item :=
  let (start, attached) := cutEquals word
  match completions start, attached with
  | [choice], none => some (.option choice none)
  | [choice], some value => some (optionWith choice value)
  | [], _ => some (strayItem word)
  | _, _ => none

/-- What the word is, unless it may mean several options. -/
def item? (word : Text) : Option Item :=
  match word with
  | '-' :: '-' :: _ => longItem? word
  | ['-', 'h'] => some (.option .help none)
  | '-' :: 'h' :: '=' :: letters => some (helpWith letters)
  | '-' :: 'h' :: letters => some (helpWith letters)
  | '-' :: _ :: _ => some (strayItem word)
  | _ => some .value

/-- The words with what they are; behind `--` there are only values, and none of them
belongs to an option. -/
def items? : List Text → Option (List (Item × Text))
  | [] => some []
  | word :: rest =>
    if word = ['-', '-'] then
      some ((.surplus, word) :: rest.map fun later => (.value, later))
    else do
      let item ← item? word
      let later ← items? rest
      return (item, word) :: later

-- ═════════════════════════════════════════════════════════════════════════════
-- Whole command lines
-- ═════════════════════════════════════════════════════════════════════════════

/-- What has been read of a command line. -/
structure Progress where
  docs : Option (Option Text) := none
  module : Option Text := none
  width : Width := .usual
  html : Option Text := none
  json : Option Text := none
  verbose : Bool := false
  surplus : Bool := false
  deriving Repr, DecidableEq

namespace Progress

/-- The width that the value of an option asks for; only an integer will do. -/
def width? : Option Text → Option Width
  | none => some .missing
  | some value => (Text.readInteger? value).map .columns

/-- The option with its value or without one, if the value will do. -/
def set? (progress : Progress) (choice : Choice) (value : Option Text) : Option Progress :=
  match choice with
  | .docs => some { progress with docs := some value }
  | .module => some { progress with module := value }
  | .width => (width? value).map fun width => { progress with width }
  | .html => some { progress with html := value }
  | .json => some { progress with json := value }
  | .help | .verbose => none

/-- What the command line means, once all of it has been read. -/
def meaning (progress : Progress) : Meaning :=
  match progress.docs, progress.surplus with
  | some docs, false =>
    .run {
      docs
      module := progress.module
      width := progress.width
      html := progress.html
      json := progress.json
      verbose := progress.verbose }
  | _, _ => .misuse

end Progress

/-- The value that is attached to an option; two hyphens are none. -/
def attachedValue (attached : Text) : Option Text :=
  if attached = ['-', '-'] then none else some attached

/-- The words from the left, after what has been read. -/
def readItems (progress : Progress) : List (Item × Text) → Meaning
  | [] => progress.meaning
  | (.value, _) :: rest => readItems { progress with surplus := true } rest
  | (.surplus, _) :: rest => readItems { progress with surplus := true } rest
  | (.broken, _) :: _ => .misuse
  | (.option .help _, _) :: _ => .help
  | (.option .verbose _, _) :: rest => readItems { progress with verbose := true } rest
  | (.option choice (some attached), _) :: rest =>
    match progress.set? choice (attachedValue attached) with
    | none => .misuse
    | some next => readItems next rest
  | (.option choice none, _) :: (.value, value) :: rest =>
    match progress.set? choice (some value) with
    | none => .misuse
    | some next => readItems next rest
  | (.option _ none, _) :: _ => .misuse

/-- The meaning of a command line. -/
def read (words : List Text) : Meaning :=
  match items? words with
  | none => .misuse
  | some items => readItems {} items

end CommandLine

end PackageDocs
