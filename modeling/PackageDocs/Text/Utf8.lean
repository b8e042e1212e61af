import PackageDocs.Text.Basic

/-!
# Text as bytes

Files hold text as UTF-8. Reading is strict: bytes that no text is written as are
refused.

## Main definitions

- `Text.toUtf8`: the bytes of a text
- `Text.ofUtf8?`: the text that bytes hold
-/

namespace PackageDocs

namespace Text

/-- The bytes of the text. -/
def toUtf8 (t : Text) : ByteArray :=
  (String.ofList t).toUTF8

/-- The text that the bytes hold, if they are well formed. -/
def ofUtf8? (bytes : ByteArray) : Option Text :=
  (String.fromUTF8? bytes).map String.toList

/-- What was written reads back. -/
theorem ofUtf8?_toUtf8 (t : Text) : ofUtf8? (toUtf8 t) = some t := by
  have h : String.fromUTF8? (toUtf8 t) = some (String.ofList t) :=
    dif_pos (String.ofList t).isValidUTF8
  rw [ofUtf8?, h, Option.map_some, String.toList_ofList]

end Text

end PackageDocs
