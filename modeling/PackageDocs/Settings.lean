import PackageDocs.Style.Styled
import PackageDocs.Text.Integer

/-!
# Settings

The environment may change the layout, the styles and the level of logging. A setting
that is absent, blank or malformed has its default. How much room memory has for an
indent is a matter of the machine.

## Main definitions

- `Settings`: all settings
- `Settings.ofEnvironment`: the settings under an environment
- `LogLevel`: the levels of logging
-/

namespace PackageDocs

/-- The width and the indent of signatures, the styles and the name of the level of
logging; and the widest run of spaces that memory has room for, if there is a limit. -/
structure Settings where
  width : Int := 80
  indent : Int := 4
  room : Option Nat := none
  styles : StyleSheet := {}
  logLevel : Text := "WARNING".toList
  deriving Repr, DecidableEq

/-- The values of environment variables, those that are set. -/
abbrev Environment := String → Option Text

namespace Environment

/-- The variable without blanks around it, or `default` if it is absent or blank. -/
def text (env : Environment) (key : String) (default : Text) : Text :=
  match (env key).map Text.trim with
  | none | some [] => default
  | some t => t

/-- The number in the variable, or `default` if there is none. -/
def integer (env : Environment) (key : String) (default : Int) : Int :=
  ((env key).bind Text.readInteger?).getD default

end Environment

/-- The settings under the environment. -/
def Settings.ofEnvironment (env : Environment) : Settings :=
  let default : Settings := {}
  { width := env.integer "DV_LINE_WIDTH" default.width
    indent := env.integer "DV_INDENT" default.indent
    styles :=
      { keyword := env.text "DV_KEYWORD_STYLE" default.styles.keyword
        name := env.text "DV_NAME_STYLE" default.styles.name
        link := env.text "DV_LINK_STYLE" default.styles.link }
    logLevel := env.text "DV_LOG_LEVEL" default.logLevel }

/-- The levels of logging. -/
inductive LogLevel where
  | everything
  | debug
  | info
  | warning
  | error
  | critical
  deriving Repr, DecidableEq

namespace LogLevel

/-- The names of the levels; two levels have two names. -/
def named : List (Text × LogLevel) := [
  ("CRITICAL".toList, .critical),
  ("FATAL".toList, .critical),
  ("ERROR".toList, .error),
  ("WARN".toList, .warning),
  ("WARNING".toList, .warning),
  ("INFO".toList, .info),
  ("DEBUG".toList, .debug),
  ("NOTSET".toList, .everything)]

/-- The level of a name. -/
def ofName? (name : Text) : Option LogLevel :=
  named.lookup name

/-- The level as a number; messages below it are not shown. -/
def severity : LogLevel → Nat
  | .everything => 0
  | .debug => 10
  | .info => 20
  | .warning => 30
  | .error => 40
  | .critical => 50

end LogLevel

end PackageDocs
