import PackageDocs.Entry.Fixity
import PackageDocs.Entry.Layout
import PackageDocs.Settings

/-!
# Rendered entries

An entry is handed to the display as its signature, its fixity and its comment. The
types of a module are read against the module itself, and the settings give the frame.

## Main definitions

- `RenderedEntry`, `Entry.rendered`: an entry ready for display
- `Settings.frameFor`: the frame of an entry
- `Entry.render`: an entry under the settings
- `ModuleDocs.scope`: the names that the module's types may refer to
- `ModuleDocs.render`: all entries of a module
-/

namespace PackageDocs

/-- An entry ready for display. -/
structure RenderedEntry where
  name : Text
  signature : Document
  fixity : Option Text
  comment : Text
  deriving Repr, DecidableEq

/-- The fixity of an entry; only values have one. -/
def Entry.fixity : Entry → Option Text
  | .value entry => entry.fixity
  | _ => none

/-- The entry with its signature laid out in the frame. -/
def Entry.rendered (scope : Scope) (frame : Frame) (e : Entry) : RenderedEntry where
  name := e.name
  signature := e.document scope frame
  fixity := e.fixity
  comment := e.comment

/-- The frame of an entry. A value needs a width; the signatures of the other entries do
not depend on it, so they take the usual one. -/
def Settings.frameFor (settings : Settings) (width : Width) (e : Entry) :
    Except LayoutFault Frame := do
  let indent ← Frame.spaces settings.room settings.indent
  match width, e with
  | .columns n, _ => return { width := n, indent }
  | .missing, .value _ => .error .missingWidth
  | _, _ => return { width := settings.width, indent }

/-- The entry laid out under the settings, in the width that is asked for. -/
def Entry.render (settings : Settings) (width : Width) (scope : Scope) (e : Entry) :
    Except LayoutFault RenderedEntry := do
  let frame ← settings.frameFor width e
  return e.rendered scope frame

namespace ModuleDocs

/-- The types of the module are read against its own names. -/
def scope (m : ModuleDocs) : Scope where
  names := m.typeNames
  module := some m.name

/-- All entries of the module, in order. -/
def render (settings : Settings) (width : Width) (m : ModuleDocs) :
    Except LayoutFault (List RenderedEntry) :=
  m.entries.mapM (Entry.render settings width m.scope)

end ModuleDocs

end PackageDocs
