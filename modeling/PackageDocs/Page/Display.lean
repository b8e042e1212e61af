import PackageDocs.Entry.Rendered
import PackageDocs.Json.Basic
import PackageDocs.Page.Basic
import PackageDocs.Page.Console

/-!
# Pages on the console

A page is shown as a sequence of events: a rule with the module's name, its markdown,
and for each entry the styled signature, followed by its comment unless that is blank.

## Main definitions

- `PageFault`: why a page may end early
- `Display`: what was shown, and the fault that ended it, if one did
- `ModuleDocs.display`: the page of a module
- `ModuleDocs.record`: the module's entries as data

## Design notes

Entries are laid out and styles are read when a block needs them. The first block that
cannot be laid out or needs a malformed style ends the display; what was shown before
it stays. The name of the module stands in the markup of the title, so a page may even
end before its rule.
-/

namespace PackageDocs

/-- Why a page ends early: its title is malformed, an entry cannot be laid out, or a
style is malformed. -/
inductive PageFault where
  | malformedTitle (fault : MalformedMarkup)
  | layout (fault : LayoutFault)
  | malformedStyle (style : MalformedStyle)
  deriving Repr, DecidableEq

variable {σ : Type}

/-- What was shown, and the fault that ended it. -/
structure Display (σ : Type) where
  events : List (Event σ)
  fault : Option PageFault := none
  deriving Repr, DecidableEq

/-- The signature and the fixity behind it, in their styles. -/
def RenderedEntry.styled (styles : StyleLanguage σ) (sheet : StyleSheet) (e : RenderedEntry) :
    Except MalformedStyle (StyledText σ) := do
  let signature ← StyledText.ofDocument styles sheet e.signature
  match e.fixity with
  | none => return signature
  | some fixity =>
    let style ← styles.read sheet.keyword
    return signature.push ("    ".toList ++ fixity) style

/-- The comment below a signature, indented; none if it is blank. -/
def commentEvents (indent : Int) (comment : Text) : List (Event σ) :=
  if (Text.trim comment).isEmpty then [] else [.padded 0 0 1 indent comment]

/-- The events of one block. -/
def Block.events (styles : StyleLanguage σ) (settings : Settings) (scope : Scope)
    (width : Width) : Block → Except PageFault (List (Event σ))
  | .markdown text => .ok [.markdown text]
  | .entry e => do
    let rendered ← (e.render settings width scope).mapError .layout
    let styled ← (rendered.styled styles settings.styles).mapError .malformedStyle
    return .styled styled :: commentEvents settings.indent rendered.comment

/-- The blocks, up to the first one at fault. -/
def showBlocks (styles : StyleLanguage σ) (settings : Settings) (scope : Scope) (width : Width) :
    List Block → Display σ
  | [] => { events := [] }
  | block :: rest =>
    match block.events styles settings scope width with
    | .error fault => { events := [], fault := some fault }
    | .ok events =>
      let later := showBlocks styles settings scope width rest
      { later with events := events ++ later.events }

namespace ModuleDocs

/-- The title of the module's page. -/
def title (m : ModuleDocs) : Text :=
  "[bold]".toList ++ m.name ++ "[/bold]".toList

/-- The module's page, in signatures of the given width. -/
def display (console : Console σ) (settings : Settings) (width : Width) (m : ModuleDocs) :
    Display σ :=
  match console.refusal? m.title with
  | some fault => { events := [], fault := some (.malformedTitle fault) }
  | none =>
    let blocks := showBlocks console.styles settings m.scope width m.page
    { blocks with events := .rule m.title :: blocks.events }

end ModuleDocs

/-- A rendered entry as data, its signature without the styling. -/
def RenderedEntry.record (e : RenderedEntry) : Json :=
  .obj [
    ("name".toList, .str e.name),
    ("signature".toList, .str e.signature.plain),
    ("fixity".toList, (e.fixity.map .str).getD .null),
    ("comment".toList, .str e.comment)]

/-- The module's entries as data. -/
def ModuleDocs.record (settings : Settings) (width : Width) (m : ModuleDocs) :
    Except LayoutFault Json := do
  let rendered ← m.render settings width
  return .obj [
    ("name".toList, .str m.name),
    ("entries".toList, .arr (rendered.map RenderedEntry.record))]

end PackageDocs
