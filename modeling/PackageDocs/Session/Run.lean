import PackageDocs.Page.Plain
import PackageDocs.Session.Pages

/-!
# Whole sessions

A session from its command line to its end, on a volume that holds the documentation and
receives the data file and the page in HTML.

## Main definitions

- `Session.Host`, `Session.Host.plain`: what a session finds around it
- `Session.save`, `Session.exportPages`: the files are written
- `Session.Report`: how a session ended
- `Session.run`: the session
-/

namespace PackageDocs

namespace Session

variable {σ : Type}

/-- What a session finds around it. How a console writes the events that it recorded as HTML
is its own matter; it may fail, and it may leave any volume behind. -/
structure Host (σ : Type) where
  console : Console σ
  wording : Wording
  /-- The text for documentation that cannot be read. -/
  faultText : FileFault → Text
  /-- The volume with the events as HTML at the path. -/
  saveHtml : Text → List (Event σ) → Volume → Except WriteFault Volume

/-- A host with a plain console, which writes pages in HTML like other files. -/
def Host.plain (wording : Wording) (faultText : FileFault → Text) : Host Style where
  console := .plain
  wording := wording
  faultText := faultText
  saveHtml path events volume := volume.write path (Text.toUtf8 (htmlDocument events))

/-- How a session ended and at which stage, and the level of logging if it got that far. -/
structure Report (σ : Type) where
  ending : Ending
  level : Option LogLevel := none
  stage : Stage σ

/-- The data file is written, if one is asked for. -/
def save (host : Host σ) (time : Text) (arguments : Arguments) (stage : Stage σ) :
    Except (Stop σ) (Stage σ) :=
  match filePath? arguments.json with
  | none => .ok stage
  | some path =>
    match stage.volume.write path (Text.toUtf8 (dataFile time stage.results)) with
    | .error fault =>
      .error { ending := .notWritten fault.fault, stage := { stage with volume := fault.left } }
    | .ok saved => tell host.console (savedLine path) { stage with volume := saved }

/-- The page in HTML is written, if it is asked for. -/
def exportPages (host : Host σ) (arguments : Arguments) (stage : Stage σ) :
    Except (Stop σ) (Stage σ) :=
  match filePath? arguments.html with
  | none => .ok stage
  | some path =>
    match host.saveHtml path (recorded stage.shown) stage.volume with
    | .error fault =>
      .error { ending := .notExported fault.fault, stage := { stage with volume := fault.left } }
    | .ok saved =>
      let stage := { stage with volume := saved }
      tell host.console (exportedLine path) (stage.shows .recorder [.saveHtml path])

/-- The session behind its start. -/
def proceed (host : Host σ) (settings : Settings) (time path : Text) (arguments : Arguments)
    (stage : Stage σ) : Except (Stop σ) (Stage σ) := do
  match modules host.wording path arguments ((stage.volume.read path).mapError host.faultText) with
  | .error line =>
    let stage ← tell host.console line stage
    .error { ending := .exit 1, stage }
  | .ok chosen =>
    let stage ← showModules host.console host.wording settings arguments chosen stage
    let stage ← save host time arguments stage
    exportPages host arguments stage

/-- The report on a session that went to its end, or that was over before. -/
def conclude (level : LogLevel) : Except (Stop σ) (Stage σ) → Report σ
  | .ok stage => { ending := .exit 0, level, stage }
  | .error stop => { ending := stop.ending, level, stage := stop.stage }

/-- The session with the given words on its command line, at the given time. -/
def run (host : Host σ) (settings : Settings) (time : Text) (words : List Text)
    (volume : Volume) : Report σ :=
  match start settings words with
  | .ended status => { ending := .exit status, stage := { volume } }
  | .unknownLevel name =>
    { ending := .unknownLevel name, level := some .warning, stage := { volume } }
  | .noPath level => { ending := .noPath, level, stage := { volume } }
  | .begun path arguments level =>
    conclude level (proceed host settings time path arguments { volume })

end Session

end PackageDocs
