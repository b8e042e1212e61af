import PackageDocs.Proofs.Session.Pages
import PackageDocs.Proofs.Volume
import PackageDocs.Session.Run

/-!
# Files behind the pages

Once its modules are shown and recorded, a session writes the data file and then the page in
HTML, each with a line behind it. Writing either of them may fail, and so may showing either
line; what follows is left out then, and what was shown and written before stays.

## Main definitions

- `Session.closing`: what is shown behind the pages
- `Session.Wrote`, `Session.DataWritten`, `Session.PageWritten`: a file was written, if it was
  asked for
- `Session.Finished`: the ways in which a session ends behind its pages
- `Session.Carried`: such an end, with the records in the data file

## Main results

- `Session.finished_conclude`: there are no other ways
- `Session.Finished.exists_closing`: nothing else is shown
- `Session.Finished.carried`: what the data file holds
-/

namespace PackageDocs

namespace Session

variable {σ : Type}

-- ═════════════════════════════════════════════════════════════════════════════
-- What is shown
-- ═════════════════════════════════════════════════════════════════════════════

/-- What is shown once the data file is written. -/
def dataEvents (arguments : Arguments) : List (Shown σ) :=
  match filePath? arguments.json with
  | none => []
  | some path => [Shown.line (savedLine path)]

/-- The page in HTML, if it is asked for. -/
def exportEvents (arguments : Arguments) : List (Shown σ) :=
  match filePath? arguments.html with
  | none => []
  | some path => [{ device := .recorder, event := .saveHtml path }]

/-- What is shown once the page in HTML is written. -/
def exportedEvents (arguments : Arguments) : List (Shown σ) :=
  match filePath? arguments.html with
  | none => []
  | some path => [Shown.line (exportedLine path)]

/-- What is shown behind the pages. -/
def closing (arguments : Arguments) : List (Shown σ) :=
  dataEvents arguments ++ exportEvents arguments ++ exportedEvents arguments

theorem recorded_append_dataEvents (shown : List (Shown σ)) (arguments : Arguments) :
    recorded (shown ++ dataEvents arguments) = recorded shown := by
  have hdata : recorded (dataEvents arguments : List (Shown σ)) = [] := by
    rw [dataEvents]
    cases filePath? arguments.json <;> rfl
  rw [recorded] at hdata ⊢
  rw [List.filter_append, List.map_append, hdata, List.append_nil]
  rfl

-- ═════════════════════════════════════════════════════════════════════════════
-- The ways to end
-- ═════════════════════════════════════════════════════════════════════════════

/-- The file at the path was written, if there is a path; otherwise nothing was. -/
def Wrote (path? : Option Text) (write : Text → Except WriteFault Volume)
    (before after : Volume) : Prop :=
  match path? with
  | none => after = before
  | some path => write path = .ok after

theorem wrote_none {write : Text → Except WriteFault Volume} {before after : Volume} :
    Wrote none write before after ↔ after = before := Iff.rfl

theorem wrote_some {path : Text} {write : Text → Except WriteFault Volume}
    {before after : Volume} : Wrote (some path) write before after ↔ write path = .ok after :=
  Iff.rfl

/-- The bytes of the data file. -/
def dataBytes (time : Text) (records : List Json) : ByteArray :=
  Text.toUtf8 (dataFile time records)

/-- The data file was written to the volume, if it is asked for. -/
def DataWritten (time : Text) (arguments : Arguments) (records : List Json)
    (volume saved : Volume) : Prop :=
  Wrote (filePath? arguments.json) (fun path => volume.write path (dataBytes time records))
    volume saved

/-- What was recorded of the events was written in HTML, if it is asked for. -/
def PageWritten (host : Host σ) (arguments : Arguments) (shown : List (Shown σ))
    (saved left : Volume) : Prop :=
  Wrote (filePath? arguments.html) (fun path => host.saveHtml path (recorded shown) saved)
    saved left

/-- A session that showed the events and recorded the modules ends in one of these ways: the
data file cannot be written, or the line behind it is refused; the page in HTML cannot be
written, or the line behind it is refused; or everything is done. -/
inductive Finished (host : Host σ) (time : Text) (arguments : Arguments) (level : LogLevel)
    (volume : Volume) (shown : List (Shown σ)) (records : List Json) : Report σ → Prop where
  | notWritten {path : Text} {fault : WriteFault}
      (hpath : filePath? arguments.json = some path)
      (hwrite : volume.write path (dataBytes time records) = .error fault) :
      Finished host time arguments level volume shown records {
        ending := .notWritten fault.fault, level
        stage := { volume := fault.left, shown, results := records } }
  | dataNotTold {saved : Volume} {path : Text} {refusal : MalformedMarkup}
      (hsaved : DataWritten time arguments records volume saved)
      (hpath : filePath? arguments.json = some path)
      (hline : host.console.refusal? (savedLine path) = some refusal) :
      Finished host time arguments level volume shown records {
        ending := .notPrinted refusal, level
        stage := { volume := saved, shown, results := records } }
  | notExported {saved : Volume} {path : Text} {fault : WriteFault}
      (hsaved : DataWritten time arguments records volume saved)
      (hpath : filePath? arguments.html = some path)
      (hexport : host.saveHtml path (recorded shown) saved = .error fault) :
      Finished host time arguments level volume shown records {
        ending := .notExported fault.fault, level
        stage := {
          volume := fault.left, shown := shown ++ dataEvents arguments, results := records } }
  | exportNotTold {saved left : Volume} {path : Text} {refusal : MalformedMarkup}
      (hsaved : DataWritten time arguments records volume saved)
      (hpath : filePath? arguments.html = some path)
      (hexport : host.saveHtml path (recorded shown) saved = .ok left)
      (hline : host.console.refusal? (exportedLine path) = some refusal) :
      Finished host time arguments level volume shown records {
        ending := .notPrinted refusal, level
        stage := {
          volume := left
          shown := shown ++ dataEvents arguments ++ exportEvents arguments
          results := records } }
  | closed {saved left : Volume}
      (hsaved : DataWritten time arguments records volume saved)
      (hleft : PageWritten host arguments shown saved left) :
      Finished host time arguments level volume shown records {
        ending := .exit 0, level
        stage := { volume := left, shown := shown ++ closing arguments, results := records } }

variable {host : Host σ} {time : Text} {arguments : Arguments} {level : LogLevel}
  {volume : Volume} {shown : List (Shown σ)} {records : List Json} {report : Report σ}

/-- Behind the data file there is only the page in HTML. -/
theorem finished_exportPages {saved : Volume}
    (hsaved : DataWritten time arguments records volume saved) :
    Finished host time arguments level volume shown records
      (conclude level (exportPages host arguments
        { volume := saved, shown := shown ++ dataEvents arguments, results := records })) := by
  rw [exportPages]
  dsimp only
  cases hpath : filePath? arguments.html with
  | none =>
    have hclosing : shown ++ dataEvents arguments = shown ++ closing arguments := by
      simp only [closing, exportEvents, exportedEvents, hpath, List.append_nil]
    have hleft : PageWritten host arguments shown saved saved := by
      rw [PageWritten, hpath, wrote_none]
    dsimp only
    rw [hclosing]
    exact .closed hsaved hleft
  | some path =>
    dsimp only
    rw [recorded_append_dataEvents]
    cases hexport : host.saveHtml path (recorded shown) saved with
    | error fault => exact .notExported hsaved hpath hexport
    | ok left =>
      have hevents : ([Shown.mk .recorder (.saveHtml path)] : List (Shown σ)) =
          exportEvents arguments := by
        rw [exportEvents, hpath]
      dsimp only
      rw [Stage.shows_eq_extend, List.map_singleton, hevents]
      cases hline : host.console.refusal? (exportedLine path) with
      | some refusal =>
        rw [tell_of_refusal hline, conclude, Stage.extend, List.append_nil]
        exact .exportNotTold hsaved hpath hexport hline
      | none =>
        have hclosing : shown ++ dataEvents arguments ++ exportEvents arguments ++
            [Shown.line (exportedLine path)] = shown ++ closing arguments := by
          simp only [closing, exportedEvents, hpath, List.append_assoc]
        have hleft : PageWritten host arguments shown saved left := by
          rwa [PageWritten, hpath, wrote_some]
        rw [tell_of_takes hline, Stage.extend_extend, Stage.extend, ← List.append_assoc,
          hclosing, List.append_nil, List.append_nil]
        exact .closed hsaved hleft

/-- There is no other way to end behind the pages. -/
theorem finished_conclude :
    Finished host time arguments level volume shown records
      (conclude level (save host time arguments { volume, shown, results := records } >>=
        exportPages host arguments)) := by
  rw [save]
  dsimp only
  cases hpath : filePath? arguments.json with
  | none =>
    have hshown : shown = shown ++ dataEvents arguments := by
      rw [dataEvents, hpath, List.append_nil]
    have hsaved : DataWritten time arguments records volume volume := by
      rw [DataWritten, hpath, wrote_none]
    have hfinished : Finished host time arguments level volume shown records
        (conclude level (exportPages host arguments
          { volume, shown := shown ++ dataEvents arguments, results := records })) :=
      finished_exportPages hsaved
    rwa [← hshown] at hfinished
  | some path =>
    have hbytes : Text.toUtf8 (dataFile time records) = dataBytes time records := rfl
    dsimp only
    rw [hbytes]
    cases hwrite : volume.write path (dataBytes time records) with
    | error fault => exact .notWritten hpath hwrite
    | ok saved =>
      have hsaved : DataWritten time arguments records volume saved := by
        rwa [DataWritten, hpath, wrote_some]
      dsimp only
      cases hline : host.console.refusal? (savedLine path) with
      | some refusal =>
        rw [tell_of_refusal hline]
        exact .dataNotTold hsaved hpath hline
      | none =>
        have hevents : ([Shown.line (savedLine path)] : List (Shown σ)) =
            dataEvents arguments := by
          rw [dataEvents, hpath]
        rw [tell_of_takes hline, ok_bind, Stage.extend, hevents, List.append_nil]
        exact finished_exportPages hsaved

-- ═════════════════════════════════════════════════════════════════════════════
-- What is left
-- ═════════════════════════════════════════════════════════════════════════════

namespace Finished

/-- Nothing is shown behind the pages but what closes a session, as far as it got. -/
theorem exists_closing (h : Finished host time arguments level volume shown records report) :
    ∃ rest, rest <+: closing arguments ∧ report.stage.shown = shown ++ rest := by
  cases h with
  | notWritten => exact ⟨[], List.nil_prefix, (List.append_nil _).symm⟩
  | dataNotTold => exact ⟨[], List.nil_prefix, (List.append_nil _).symm⟩
  | notExported =>
    refine ⟨dataEvents arguments, ?_, rfl⟩
    rw [closing, List.append_assoc]
    exact List.prefix_append ..
  | exportNotTold =>
    exact ⟨dataEvents arguments ++ exportEvents arguments, List.prefix_append ..,
      List.append_assoc ..⟩
  | closed => exact ⟨closing arguments, List.prefix_rfl, rfl⟩

end Finished

/-- The volume is as the data file left it, or as the page in HTML left that, whether it
could be written or not. -/
def IsLeft (host : Host σ) (arguments : Arguments) (shown : List (Shown σ))
    (saved left : Volume) : Prop :=
  left = saved ∨ ∃ path, filePath? arguments.html = some path ∧
    left = Volume.after (host.saveHtml path (recorded shown) saved)

theorem PageWritten.isLeft {saved left : Volume}
    (h : PageWritten host arguments shown saved left) :
    IsLeft host arguments shown saved left := by
  rw [PageWritten] at h
  cases hpath : filePath? arguments.html with
  | none =>
    rw [hpath, wrote_none] at h
    exact Or.inl h
  | some path =>
    rw [hpath, wrote_some] at h
    exact Or.inr ⟨path, hpath, by rw [h, Volume.after]⟩

/-- The data file holds what was written to it, and without one nothing was written. -/
theorem DataWritten.read {saved : Volume}
    (h : DataWritten time arguments records volume saved) :
    (filePath? arguments.json = none → saved = volume) ∧
      ∀ path, filePath? arguments.json = some path →
        saved.read path = .ok (dataBytes time records) := by
  rw [DataWritten] at h
  constructor
  · intro hnone
    rwa [hnone, wrote_none] at h
  · intro path hpath
    rw [hpath, wrote_some] at h
    exact Volume.read_of_write h

/-- A session showed the events and carried the records to its end. The data file, if one is
asked for, holds the records once it is written, and behind it only the page in HTML is
written. A data file that cannot be written leaves all files as they were. -/
structure Carried (host : Host σ) (time : Text) (arguments : Arguments) (level : LogLevel)
    (volume : Volume) (shown : List (Shown σ)) (records : List Json) (report : Report σ) :
    Prop where
  finished : Finished host time arguments level volume shown records report
  unwritten : ∀ fault, report.ending = .notWritten fault →
    report.stage.volume.files = volume.files
  written : (∀ fault, report.ending ≠ .notWritten fault) → ∃ saved,
    IsLeft host arguments shown saved report.stage.volume ∧
      (filePath? arguments.json = none → saved = volume) ∧
      ∀ path, filePath? arguments.json = some path →
        saved.read path = .ok (dataBytes time records)

theorem Finished.carried (h : Finished host time arguments level volume shown records report) :
    Carried host time arguments level volume shown records report := by
  refine ⟨h, ?_, ?_⟩
  · intro fault hfault
    cases h with
    | notWritten _ hwrite => exact Volume.files_left_of_write hwrite
    | _ => exact Ending.noConfusion hfault
  · intro hending
    cases h with
    | notWritten => exact absurd rfl (hending _)
    | dataNotTold hsaved => exact ⟨_, Or.inl rfl, hsaved.read⟩
    | notExported hsaved hpath hexport =>
      exact ⟨_, Or.inr ⟨_, hpath, by rw [hexport, Volume.after]⟩, hsaved.read⟩
    | exportNotTold hsaved hpath hexport =>
      exact ⟨_, Or.inr ⟨_, hpath, by rw [hexport, Volume.after]⟩, hsaved.read⟩
    | closed hsaved hleft => exact ⟨_, hleft.isLeft, hsaved.read⟩

end Session

end PackageDocs
