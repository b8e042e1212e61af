import PackageDocs.Package.Loading
import PackageDocs.Proofs.Json.RoundTrip
import PackageDocs.Proofs.Volume

/-!
# Files of written data

Data that was written to a file is what the file holds, and loading the file is the same
as decoding the data: the same modules come out, or the same fault.

## Main results

- `readData_toUtf8`, `loadPackage_toUtf8`: the bytes of written data
- `written_data_reads_back`: files of written data
-/

namespace PackageDocs

theorem readData_toUtf8 {v : Json} (h : v.Regular) : readData (Text.toUtf8 v.write) = .ok v := by
  rw [readData, Text.ofUtf8?_toUtf8]
  dsimp only
  rw [h.read?_write]

theorem loadPackage_toUtf8 {v : Json} (h : v.Regular) :
    loadPackage (Text.toUtf8 v.write) = (decodePackage v).mapError .refused := by
  rw [loadPackage, readData_toUtf8 h]
  rfl

/-- **Written data reads back.** Data without fractions and repeated keys is what its bytes
hold, and they load as the data decodes, to the same modules or the same fault. The file
that the bytes were written to has these bytes. -/
theorem written_data_reads_back {v : Json} (h : v.Regular) :
    (readData (Text.toUtf8 v.write) = .ok v ∧
      loadPackage (Text.toUtf8 v.write) = (decodePackage v).mapError .refused) ∧
    ∀ (volume saved : Volume) (path : Text),
      volume.write path (Text.toUtf8 v.write) = .ok saved →
        ∃ bytes, saved.read path = .ok bytes ∧ readData bytes = .ok v ∧
          loadPackage bytes = (decodePackage v).mapError .refused := by
  refine ⟨⟨readData_toUtf8 h, loadPackage_toUtf8 h⟩, ?_⟩
  intro volume saved path hwrite
  exact ⟨_, Volume.read_of_write hwrite, readData_toUtf8 h, loadPackage_toUtf8 h⟩

/-- Characters that are escaped and others that are not, empty lists and objects, and a
number beyond all machine integers. -/
theorem written_data_reads_back_of_package :
    let v : Json := .obj [
      ("modules".toList, .arr [.obj [
        ("name".toList, .str "M\x00\"\\\n\u2028😀".toList),
        ("values".toList, .arr []),
        ("binops".toList, .arr [.obj [
          ("name".toList, .str "+".toList),
          ("type".toList, .str "a".toList),
          ("associativity".toList, .str "left".toList),
          ("precedence".toList, .int (-18446744073709551617))]])]]),
      ("more".toList, .arr [.null, .bool true, .obj []])]
    v.Regular ∧ readData (Text.toUtf8 v.write) = .ok v ∧
      loadPackage (Text.toUtf8 v.write) = .ok [{
        name := "M\x00\"\\\n\u2028😀".toList
        values := [{
          name := "+".toList
          type := "a".toList
          associativity := some "left".toList
          precedence := some (.level (-18446744073709551617)) }] }] := by
  intro v
  have hregular : v.Regular := by
    simp [v]
  obtain ⟨⟨hread, hload⟩, -⟩ := written_data_reads_back hregular
  exact ⟨hregular, hread, hload⟩

end PackageDocs
