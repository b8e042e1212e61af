import PackageDocs.Session.Basic
import PackageDocs.Volume

/-!
# The pages of a session

The modules are shown one after the other. What was shown and recorded so far is the stage
of the session; each module adds its page and its record, and a fault of the page is told in
a line. A line may itself be refused by the console, and that ends the session.

## Main definitions

- `Session.Device`, `Session.Shown`: the two consoles, and what is shown on them
- `Session.Stage`: how far a session has come
- `Session.Ending`, `Session.Stop`: how a session ends, and at which stage
- `Session.tell`: a line is shown
- `Session.attempt`: a module is shown and recorded, up to its first fault
- `Session.step`: a module is shown and recorded, or its fault is

## Design notes

Pages go to a console of their own if they are wanted in HTML, and lines never do. Both
consoles take the same markup.
-/

namespace PackageDocs

namespace Session

variable {σ : Type}

/-- The console, and the console that records what is wanted in HTML. -/
inductive Device where
  | console
  | recorder
  deriving Repr, DecidableEq

/-- One thing shown, and where. -/
structure Shown (σ : Type) where
  device : Device
  event : Event σ
  deriving Repr, DecidableEq

/-- How far a session has come: the files it leaves, what was shown, and what is recorded
of the modules. -/
structure Stage (σ : Type) where
  volume : Volume
  shown : List (Shown σ) := []
  results : List Json := []

/-- How a session ends: with an exit status, or in a fault that nothing handles. -/
inductive Ending where
  | exit (status : Nat)
  | unknownLevel (name : Text)
  | noPath
  | notPrinted (fault : MalformedMarkup)
  | notWritten (fault : FileFault)
  | notExported (fault : FileFault)
  deriving Repr, DecidableEq

/-- A session that is over before its last step. -/
structure Stop (σ : Type) where
  ending : Ending
  stage : Stage σ

/-- The stage with more events on a device. -/
def Stage.shows (stage : Stage σ) (device : Device) (events : List (Event σ)) : Stage σ :=
  { stage with shown := stage.shown ++ events.map (Shown.mk device) }

/-- The stage with one more record. -/
def Stage.record (stage : Stage σ) (result : Json) : Stage σ :=
  { stage with results := stage.results ++ [result] }

/-- The events on the recorder. -/
def recorded (shown : List (Shown σ)) : List (Event σ) :=
  (shown.filter fun s => s.device = .recorder).map Shown.event

/-- The stage with a line on the console. -/
def tell (console : Console σ) (line : Text) (stage : Stage σ) :
    Except (Stop σ) (Stage σ) :=
  match console.refusal? line with
  | some fault => .error { ending := .notPrinted fault, stage }
  | none => .ok (stage.shows .console [.line line])

/-- The device for the pages. -/
def pageDevice (arguments : Arguments) : Device :=
  if (filePath? arguments.html).isSome then .recorder else .console

/-- The page of the module on its device and then its record, up to the first fault. -/
def attempt (console : Console σ) (settings : Settings) (arguments : Arguments)
    (stage : Stage σ) (m : ModuleDocs) : Stage σ × Option PageFault :=
  let page := m.display console settings arguments.width
  let stage := stage.shows (pageDevice arguments) page.events
  match page.fault with
  | some fault => (stage, some fault)
  | none =>
    match m.record settings arguments.width with
    | .error fault => (stage, some (.layout fault))
    | .ok record => (stage.record record, none)

/-- The stage behind one more module. A fault is told in a line and recorded. -/
def step (console : Console σ) (wording : Wording) (settings : Settings)
    (arguments : Arguments) (stage : Stage σ) (m : ModuleDocs) :
    Except (Stop σ) (Stage σ) :=
  match attempt console settings arguments stage m with
  | (stage, none) => .ok stage
  | (stage, some fault) => do
    let stage ← tell console (failureLine wording m fault) stage
    return stage.record (errorRecord wording m fault)

/-- The stage behind all the modules. -/
def showModules (console : Console σ) (wording : Wording) (settings : Settings)
    (arguments : Arguments) (modules : List ModuleDocs) (stage : Stage σ) :
    Except (Stop σ) (Stage σ) :=
  modules.foldlM (step console wording settings arguments) stage

end Session

end PackageDocs
