import PackageDocs.Text.Utf8

/-!
# Volumes

A volume is a tree of directories and files. Paths are read from its root: names with
slashes between them, `.` for the directory itself and `..` for the one above.

## Main definitions

- `Volume`: the directories and the files, by the names that lead to them
- `Volume.Limits`: how long names and paths may be
- `FileFault`, `WriteFault`: why a file could not be read or written
- `Volume.after`: the volume behind an attempt to write
- `Volume.components`: the names in a path
- `Volume.place`: what a path leads to
- `Volume.read`: the contents of a file
- `Volume.write`: a file with its directories

## Design notes

A file that cannot be written may leave directories behind that were made for it, so the
fault comes with the volume that is left.
-/

namespace PackageDocs

/-- Why a file could not be read or written. -/
inductive FileFault where
  | notFound
  | isDirectory
  | notDirectory
  | alreadyExists
  | nameTooLong
  | nullCharacter
  deriving Repr, DecidableEq

/-- The names that lead to a directory or a file from the root. -/
abbrev Route := List Text

/-- The bytes that a name and a path may take; without a number there is no bound. -/
structure Volume.Limits where
  name : Option Nat := none
  path : Option Nat := none
  deriving Repr, DecidableEq

/-- A tree of directories and files. The root is always there. -/
structure Volume where
  limits : Volume.Limits := {}
  directories : List Route := []
  files : List (Route × ByteArray) := []

/-- Why a file could not be written, and the volume that is left. -/
structure WriteFault where
  fault : FileFault
  left : Volume

namespace Volume

/-- The volume behind an attempt to write, whether it failed or not. -/
def after : Except WriteFault Volume → Volume
  | .ok v => v
  | .error fault => fault.left

/-- What a path leads to: a directory, a file, or a free name in a directory. -/
inductive Place where
  | directory
  | file (route : Route) (contents : ByteArray)
  | free (route : Route)

/-- The names in the path, without those that lead nowhere else. -/
def components (path : Text) : List Text :=
  (Text.pieces (· == '/') path).filter fun name => !(name.isEmpty || name == ['.'])

/-- There is a directory at the end of the route. -/
def hasDirectory (v : Volume) (route : Route) : Bool :=
  route.isEmpty || v.directories.contains route

/-- The number of bytes that the text takes in a path. -/
def byteSize (t : Text) : Nat :=
  (Text.toUtf8 t).size

/-- The name takes more bytes than it may. -/
def isLongName (v : Volume) (name : Text) : Bool :=
  v.limits.name.any (· < byteSize name)

/-- The names take more bytes than a path may, the slashes in front of them included. -/
def isLongPath (v : Volume) (names : List Text) : Bool :=
  v.limits.path.any (· < byteSize (names.flatMap fun name => '/' :: name))

/-- What the names lead to from the directory `here`. -/
def walk (v : Volume) (here : Route) : List Text → Except FileFault Place
  | [] => .ok .directory
  | name :: rest =>
    if name = ['.', '.'] then v.walk here.dropLast rest
    else if v.isLongName name then .error .nameTooLong
    else
      let there := here ++ [name]
      if v.hasDirectory there then v.walk there rest
      else
        match v.files.lookup there, rest.isEmpty with
        | some contents, true => .ok (.file there contents)
        | some _, false => .error .notDirectory
        | none, true => .ok (.free there)
        | none, false => .error .notFound

/-- What the names lead to from the root. No name may hold a null character. -/
def place (v : Volume) (names : List Text) : Except FileFault Place :=
  if names.any fun name => name.contains '\x00' then .error .nullCharacter
  else if v.isLongPath names then .error .nameTooLong
  else v.walk [] names

/-- The contents of the file that the path leads to. -/
def read (v : Volume) (path : Text) : Except FileFault ByteArray := do
  match ← v.place (components path) with
  | .directory => .error .isDirectory
  | .free _ => .error .notFound
  | .file _ contents => .ok contents

/-- The volume with a new directory. -/
def makeDirectory (v : Volume) (names : List Text) : Except FileFault Volume := do
  match ← v.place names with
  | .free route => .ok { v with directories := v.directories ++ [route] }
  | _ => .error .alreadyExists

/-- The volume, if the names lead to a directory, and `fault` otherwise. -/
def orDirectory (v : Volume) (names : List Text) (fault : FileFault) :
    Except WriteFault Volume :=
  match v.place names with
  | .ok .directory => .ok v
  | _ => .error { fault, left := v }

/-- The volume with a directory at the end of the names, and with all directories on
the way to it. The names are given last first. -/
def ensureDirectory (v : Volume) : List Text → Except WriteFault Volume
  | [] => .ok v
  | last :: before =>
    let names := (last :: before).reverse
    match v.makeDirectory names with
    | .ok made => .ok made
    | .error .notFound => do
      let made ← v.ensureDirectory before
      match made.makeDirectory names with
      | .ok made => .ok made
      | .error fault => made.orDirectory names fault
    | .error fault => v.orDirectory names fault

/-- The files with these contents at the end of the route. -/
def putFile (route : Route) (contents : ByteArray) :
    List (Route × ByteArray) → List (Route × ByteArray)
  | [] => [(route, contents)]
  | (there, old) :: rest =>
    if there = route then (route, contents) :: rest
    else (there, old) :: putFile route contents rest

/-- The volume with the file written, and its directory made if it was missing. -/
def write (v : Volume) (path : Text) (contents : ByteArray) : Except WriteFault Volume := do
  let names := components path
  let v ← v.ensureDirectory names.reverse.tail
  match v.place names with
  | .error fault => .error { fault, left := v }
  | .ok .directory => .error { fault := .isDirectory, left := v }
  | .ok (.file route _) | .ok (.free route) =>
    .ok { v with files := putFile route contents v.files }

end Volume

end PackageDocs
