import PackageDocs.Json.Reader
import PackageDocs.Package.Decoding
import PackageDocs.Text.Utf8

/-!
# Documentation files

A documentation file is UTF-8 text that holds the documentation of a package as
structured data.

## Main definitions

- `LoadError`: why a file was refused
- `readData`: the value that a file holds
- `loadPackage`: the modules that a file documents
-/

namespace PackageDocs

/-- Why a file was refused: its bytes are no text, its text holds no value, or the
value is no documentation. -/
inductive LoadError where
  | notText
  | notData
  | refused (error : DecodeError)
  deriving Repr, DecidableEq

/-- The value that the bytes of a file hold. -/
def readData (bytes : ByteArray) : Except LoadError Json :=
  match Text.ofUtf8? bytes with
  | none => .error .notText
  | some text =>
    match Json.read? text with
    | none => .error .notData
    | some data => .ok data

/-- The modules that the bytes of a file document. -/
def loadPackage (bytes : ByteArray) : Except LoadError (List ModuleDocs) := do
  let data ← readData bytes
  (decodePackage data).mapError .refused

end PackageDocs
