import PackageDocs.Page.Plain
import PackageDocs.Session.Pages
import PackageDocs.Text.Timestamp
import Std.Time.DateTime.Timestamp

/-!
# The program

The command line program: a session whose files are those of the file system and
whose events are printed.
-/

namespace PackageDocs

namespace Program

/-- What the program prints when it is asked for help or not used as intended. -/
def usage : String :=
  "usage: package-docs --docs PATH [--module NAME] [--width N] [--html PATH] [--json PATH] " ++
    "[--verbose]"

/-- The texts for the faults of files and styles. -/
def wording : Wording where
  notText := "the file is not UTF-8 text".toList
  notData := "the file is not well-formed JSON".toList
  pageFault := fun
    | .malformedTitle markup => "malformed title: ".toList ++ markup.text
    | .malformedStyle style => "malformed style ".toList ++ Text.quoted style.text
    | .layout .indentOverflow => "the indent is no machine integer".toList
    | .layout .indentTooWide => "the indent does not fit into memory".toList
    | .layout .missingWidth => "the width is missing".toList

/-- The widest run of spaces that the program makes. -/
def room : Nat := 0x1000000000

/-- The settings under the environment of the process. -/
def readSettings : IO Settings := do
  let keys := ["DV_LINE_WIDTH", "DV_INDENT", "DV_KEYWORD_STYLE", "DV_NAME_STYLE",
    "DV_LINK_STYLE", "DV_LOG_LEVEL"]
  let values ← keys.mapM fun key => return (key, (← IO.getEnv key).map String.toList)
  let settings := Settings.ofEnvironment fun key => (values.lookup key).join
  return { settings with room }

/-- The contents of a file, or the reason why there are none. -/
def readContents (path : Text) : IO (Except Text ByteArray) := do
  try
    return .ok (← IO.FS.readBinFile (String.ofList path))
  catch fault =>
    return .error (toString fault).toList

/-- The seconds since the start of 1970. -/
def now : IO Nat := do
  let moment ← Std.Time.Timestamp.now
  return moment.toSecondsSinceUnixEpoch.val.toNat

/-- Writes a file, and makes its directory if it is missing. -/
def writeContents (path contents : Text) : IO Unit := do
  let directory := ((path.reverse.dropWhile (· != '/')).drop 1).reverse
  unless directory.isEmpty do
    IO.FS.createDirAll (String.ofList directory)
  IO.FS.writeBinFile (String.ofList path) (Text.toUtf8 contents)

/-- Prints what was shown; both consoles are the standard output. -/
def perform (shown : List (Session.Shown Style)) : IO Unit :=
  shown.forM fun s => IO.println (String.ofList s.event.plain)

/-- Prints a line in markup. -/
def say (line : Text) : IO Unit :=
  IO.println (String.ofList (untagged line))

/-- Writes the files that are asked for, with a line behind each of them. -/
def writeFiles (arguments : Arguments) (stage : Session.Stage Style) : IO Unit := do
  if let some path := Session.filePath? arguments.json then
    let time := Text.timestamp (← now)
    writeContents path (Session.dataFile time stage.results)
    say (Session.savedLine path)
  if let some path := Session.filePath? arguments.html then
    writeContents path (htmlDocument (Session.recorded stage.shown))
    say (Session.exportedLine path)

end Program

end PackageDocs

open PackageDocs in
/-- Shows the documentation that the command line asks for. -/
def main (words : List String) : IO UInt32 := do
  let settings ← Program.readSettings
  match Session.start settings (words.map String.toList) with
  | .ended status =>
    IO.println Program.usage
    return status.toUInt32
  | .unknownLevel name =>
    IO.eprintln (String.ofList (Session.unknownLevelMessage name))
    return 1
  | .noPath _ =>
    IO.eprintln "The path of the documentation is missing"
    return 1
  | .begun path arguments level =>
    let contents ← Program.readContents path
    match Session.modules Program.wording path arguments contents with
    | .error line =>
      Program.say line
      return 1
    | .ok chosen =>
      (Session.warnings level chosen).forM fun warning => IO.eprintln (String.ofList warning)
      match Session.showModules .plain Program.wording settings arguments chosen
        { volume := {} } with
      | .error stop =>
        Program.perform stop.stage.shown
        return 1
      | .ok stage =>
        Program.perform stage.shown
        Program.writeFiles arguments stage
        return 0
