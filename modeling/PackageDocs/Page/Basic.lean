import PackageDocs.Entry.Basic
import PackageDocs.Page.Comment

/-!
# Pages

The page of a module follows its comment: prose stays where it is, and each listing
is replaced by the entries it names. An entry stands where it is named first, and the
entries that no listing names close the page, ordered by name.

## Main definitions

- `Block`: markdown or an entry
- `ModuleDocs.entry?`: the entry documented under a name
- `ModuleDocs.page`: the blocks of the module's page
- `ModuleDocs.unknownNames`: the listed names that no entry bears

## Design notes

Several entries may share a name. The last of them is documented under it, the
others do not appear on the page.
-/

namespace PackageDocs

/-- A piece of a page. -/
inductive Block where
  | markdown (text : Text)
  | entry (entry : Entry)
  deriving Repr, DecidableEq

namespace ModuleDocs

/-- The names of the entries, in order. -/
def names (m : ModuleDocs) : List Text :=
  m.entries.map Entry.name

/-- The entry documented under the name: the last one that bears it. -/
def entry? (m : ModuleDocs) (name : Text) : Option Entry :=
  (m.entries.filter fun e => e.name == name).getLast?

/-- The sections of the module's comment. -/
def sections (m : ModuleDocs) : List Comment.Section :=
  Comment.sections (Text.lines m.comment)

/-- The block of a run of prose; none if it is blank. -/
def proseBlocks (lines : List Text) : List Block :=
  let text := Comment.prose lines
  if text.isEmpty then [] else [.markdown text]

/-- The blocks of the sections, with the names in `placed` on the page already. -/
def sectionBlocks (m : ModuleDocs) (placed : List Text) : List Comment.Section → List Block
  | [] => []
  | .prose lines :: rest => proseBlocks lines ++ m.sectionBlocks placed rest
  | .listing names :: rest =>
    let fresh := names.filter (· ∉ placed)
    (fresh.filterMap m.entry?).map .entry ++ m.sectionBlocks (placed ++ fresh) rest

/-- The names of entries that no listing mentions, ordered by code point. -/
def unlistedNames (m : ModuleDocs) : List Text :=
  let listed := Comment.mentions m.sections
  ((Text.firstMentions m.names).filter (· ∉ listed)).mergeSort Text.atMost

/-- The page of the module. -/
def page (m : ModuleDocs) : List Block :=
  m.sectionBlocks [] m.sections ++ (m.unlistedNames.filterMap m.entry?).map .entry

/-- The listed names that no entry bears, listing by listing. -/
def unknownNames (m : ModuleDocs) : List Text :=
  (Comment.mentions m.sections).filter (· ∉ m.names)

end ModuleDocs

end PackageDocs
