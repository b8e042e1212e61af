import PackageDocs.CommandLine
import PackageDocs.Json.Writer
import PackageDocs.Package.Loading
import PackageDocs.Page.Display
import PackageDocs.Text.Quoted

/-!
# Sessions

A session reads the documentation of a package, shows the pages of its modules and
may write their signatures to a data file. It goes in steps: the command line, the
documentation, the pages, the files. Here is what the steps decide and what they say.

## Main definitions

- `Wording`: the texts for faults that the library does not word itself
- `Session.Start`, `Session.start`: the command line and the level of logging
- `Session.modules`: the modules to show, or why there are none
- `Session.warnings`: names on listings that are documented nowhere
- `Session.failureLine`, `Session.savedLine` and others: the lines of a session
- `Session.errorRecord`, `Session.dataFile`: the contents of the data file

## Design notes

Lines are in markup, and what a user wrote stands in them as it is.
-/

namespace PackageDocs

/-- Texts for faults whose wording is left to the outer layer. -/
structure Wording where
  /-- The bytes of the documentation are not UTF-8. -/
  notText : Text
  /-- The documentation is not well-formed data. -/
  notData : Text
  /-- A module cannot be shown or recorded. -/
  pageFault : PageFault → Text

namespace Session

-- ═════════════════════════════════════════════════════════════════════════════
-- The start
-- ═════════════════════════════════════════════════════════════════════════════

/-- How a session starts: it is over at once with an exit status, the name of the level
of logging is unknown, there is no path to the documentation, or the arguments are
carried out at a level on the documentation at a path. -/
inductive Start where
  | ended (status : Nat)
  | unknownLevel (name : Text)
  | noPath (level : LogLevel)
  | begun (path : Text) (arguments : Arguments) (level : LogLevel)
  deriving Repr, DecidableEq

/-- The message for an unknown level. -/
def unknownLevelMessage (name : Text) : Text :=
  "Unknown level: ".toList ++ Text.quoted name

/-- The level of logging: everything when asked to be verbose, the one of the settings
otherwise. -/
def level? (settings : Settings) (arguments : Arguments) : Option LogLevel :=
  if arguments.verbose then some .debug else LogLevel.ofName? settings.logLevel

/-- The start of a session with these words on its command line. -/
def start (settings : Settings) (words : List Text) : Start :=
  match CommandLine.read words with
  | .help => .ended 0
  | .misuse => .ended 2
  | .run arguments =>
    match level? settings arguments with
    | none => .unknownLevel settings.logLevel
    | some level =>
      match arguments.docs with
      | none => .noPath level
      | some path => .begun path arguments level

-- ═════════════════════════════════════════════════════════════════════════════
-- The documentation
-- ═════════════════════════════════════════════════════════════════════════════

/-- The text between an opening and a closing tag. -/
def tagged (tag : String) (t : Text) : Text :=
  ['['] ++ tag.toList ++ [']'] ++ t ++ ['[', '/'] ++ tag.toList ++ [']']

/-- The text of a load error. -/
def loadErrorText (wording : Wording) : LoadError → Text
  | .notText => wording.notText
  | .notData => wording.notData
  | .refused error => error.message

/-- The line for documentation that could not be read. -/
def unreadableLine (path reason : Text) : Text :=
  tagged "red" ("Cannot read ".toList ++ path ++ ": ".toList ++ reason)

/-- The line for a module that is not documented. -/
def notFoundLine (name : Text) : Text :=
  tagged "yellow" ("Module not found: ".toList ++ name)

/-- The modules asked for: all of them, or those of the given name. -/
def selected (arguments : Arguments) (modules : List ModuleDocs) : List ModuleDocs :=
  match arguments.module with
  | none | some [] => modules
  | some name => modules.filter fun m => m.name == name

/-- The modules to show, or the line that says why there are none. The contents of the
documentation file at `path` are given, or the reason why there are none. -/
def modules (wording : Wording) (path : Text) (arguments : Arguments)
    (contents : Except Text ByteArray) : Except Text (List ModuleDocs) :=
  match contents with
  | .error reason => .error (unreadableLine path reason)
  | .ok bytes =>
    match loadPackage bytes with
    | .error error => .error (unreadableLine path (loadErrorText wording error))
    | .ok documented =>
      match selected arguments documented, arguments.module with
      | [], some (c :: name) => .error (notFoundLine (c :: name))
      | chosen, _ => .ok chosen

-- ═════════════════════════════════════════════════════════════════════════════
-- The pages
-- ═════════════════════════════════════════════════════════════════════════════

/-- The line for a module at fault. -/
def failureLine (wording : Wording) (m : ModuleDocs) (fault : PageFault) : Text :=
  tagged "red" ("Failed ".toList ++ m.name ++ ": ".toList ++ wording.pageFault fault)

/-- What is recorded of a module at fault. -/
def errorRecord (wording : Wording) (m : ModuleDocs) (fault : PageFault) : Json :=
  .obj [
    ("name".toList, .str m.name),
    ("error".toList, .str (wording.pageFault fault))]

/-- The warnings about names on listings that no entry bears, if the level of logging
lets them through. -/
def warnings (level : LogLevel) (modules : List ModuleDocs) : List Text :=
  if LogLevel.warning.severity < level.severity then []
  else modules.flatMap fun m => m.unknownNames.map fun name =>
    m.name ++ ": @docs names unknown entry ".toList ++ Text.quoted name

-- ═════════════════════════════════════════════════════════════════════════════
-- The files
-- ═════════════════════════════════════════════════════════════════════════════

/-- The path of an option that asks for a file; an empty path asks for none. -/
def filePath? : Option Text → Option Text
  | none | some [] => none
  | some path => some path

/-- The contents of the data file: when it was made, and the records of the modules. -/
def dataFile (time : Text) (records : List Json) : Text :=
  Json.write (.obj [("generated_at".toList, .str time), ("modules".toList, .arr records)])

/-- The line for a data file that was written. -/
def savedLine (path : Text) : Text :=
  tagged "green" ("Done. Signatures written to ".toList ++ path)

/-- The line for a page in HTML that was written. -/
def exportedLine (path : Text) : Text :=
  tagged "green" ("Done. HTML written to ".toList ++ path)

end Session

end PackageDocs
