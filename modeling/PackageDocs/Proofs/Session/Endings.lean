import PackageDocs.Proofs.Session.Modules

/-!
# Endings of a session

A session that can start ends at once, with one line and without a file, if there is no
documentation at its path or none of the module asked for. Otherwise it shows and records all
modules asked for, whatever their pages are at fault with, and then writes its files. On a
console that takes all markup nothing goes wrong behind the pages but the writing.

## Main definitions

- `Session.Documents`: a file documents modules
- `Session.LacksModules`: there are no modules to show
- `Event.IsExport`: the page in HTML is written

## Main results

- `Session.run_of_lacksModules`: a session that ends at once
- `Session.Finished.ending_cases`: only the files can fail
- `Session.not_isExport_of_mem_eventsAlone`: no module has a page in HTML written
- `Session.run_ends`: how sessions end
-/

namespace PackageDocs

-- ═════════════════════════════════════════════════════════════════════════════
-- Exports
-- ═════════════════════════════════════════════════════════════════════════════

variable {σ : Type}

/-- The event has the page in HTML written. -/
def Event.IsExport : Event σ → Prop
  | .saveHtml _ => True
  | _ => False

variable {styles : StyleLanguage σ} {settings : Settings} {scope : Scope} {width : Width}

theorem Block.not_isExport_of_mem_events {block : Block} {events : List (Event σ)}
    (h : block.events styles settings scope width = .ok events) {event : Event σ}
    (hevent : event ∈ events) : ¬ event.IsExport := by
  cases block with
  | markdown text =>
    obtain rfl := Except.ok.inj h
    rw [List.mem_singleton.1 hevent]
    exact id
  | entry e =>
    obtain ⟨rendered, styled, -, -, rfl⟩ := Block.events_entry_eq_ok_iff.1 h
    rcases List.mem_cons.1 hevent with rfl | hcomment
    · exact id
    · rw [commentEvents] at hcomment
      split at hcomment
      · exact absurd hcomment List.not_mem_nil
      · rw [List.mem_singleton.1 hcomment]
        exact id

theorem not_isExport_of_mem_showBlocks {blocks : List Block} {event : Event σ}
    (hevent : event ∈ (showBlocks styles settings scope width blocks).events) :
    ¬ event.IsExport := by
  induction blocks with
  | nil => exact absurd hevent List.not_mem_nil
  | cons block rest ih =>
    cases hblock : block.events styles settings scope width with
    | error fault =>
      rw [showBlocks_cons_of_error hblock] at hevent
      exact absurd hevent List.not_mem_nil
    | ok events =>
      rw [showBlocks_cons_of_ok hblock] at hevent
      rcases List.mem_append.1 hevent with hhere | hlater
      · exact Block.not_isExport_of_mem_events hblock hhere
      · exact ih hlater

theorem ModuleDocs.not_isExport_of_mem_display {console : Console σ} {m : ModuleDocs}
    {event : Event σ} (hevent : event ∈ (m.display console settings width).events) :
    ¬ event.IsExport := by
  cases htitle : console.refusal? m.title with
  | some fault =>
    rw [display_of_refusal htitle] at hevent
    exact absurd hevent List.not_mem_nil
  | none =>
    rw [display_of_takes htitle] at hevent
    rcases List.mem_cons.1 hevent with rfl | hblock
    · exact id
    · exact not_isExport_of_mem_showBlocks hblock

namespace Session

variable {arguments : Arguments}

/-- Neither a page nor the line about its fault has a page in HTML written. -/
theorem not_isExport_of_mem_eventsAlone {console : Console σ} {wording : Wording}
    {m : ModuleDocs} {s : Shown σ}
    (hs : s ∈ eventsAlone console wording settings arguments m) : ¬ s.event.IsExport := by
  rcases List.mem_append.1 hs with hpage | hline
  · obtain ⟨event, hevent, rfl⟩ := List.mem_map.1 hpage
    exact ModuleDocs.not_isExport_of_mem_display hevent
  · obtain ⟨fault, -, rfl⟩ := Option.map_eq_some_iff.1 (Option.mem_toList.1 hline)
    exact id

-- ═════════════════════════════════════════════════════════════════════════════
-- Without modules to show
-- ═════════════════════════════════════════════════════════════════════════════

/-- The file at the path documents the modules. -/
def Documents (volume : Volume) (path : Text) (documented : List ModuleDocs) : Prop :=
  ∃ bytes, volume.read path = .ok bytes ∧ loadPackage bytes = .ok documented

/-- There is no documentation at the path, or none of the module asked for. -/
def LacksModules (volume : Volume) (path : Text) (arguments : Arguments) : Prop :=
  (¬ ∃ documented, Documents volume path documented) ∨
    ∃ documented, Documents volume path documented ∧ AsksInVain arguments documented

variable {words : List Text} {volume : Volume} {level : LogLevel} {documented : List ModuleDocs}
  {path : Text}

theorem exists_documents (h : ¬ LacksModules volume path arguments) :
    ∃ documented, Documents volume path documented ∧ ¬ AsksInVain arguments documented := by
  rw [LacksModules, not_or, not_not] at h
  obtain ⟨⟨documented, hdocuments⟩, hvain⟩ := h
  exact ⟨documented, hdocuments, fun hasks => hvain ⟨documented, hdocuments, hasks⟩⟩

theorem start_eq_begun (hread : CommandLine.read words = .run arguments)
    (hlevel : level? settings arguments = some level) (hdocs : arguments.docs = some path) :
    start settings words = .begun path arguments level := by
  simp only [start, hread, hlevel, hdocs]

theorem Documents.opens (hdocuments : Documents volume path documented)
    (hstart : start settings words = .begun path arguments level) :
    Opens settings words volume arguments level documented := by
  obtain ⟨bytes, hread, hload⟩ := hdocuments
  exact ⟨path, bytes, hstart, hread, hload⟩

section

variable (host : Host σ) (time : Text)

/-- Without a path nothing is read. -/
theorem run_of_docs_eq_none (hread : CommandLine.read words = .run arguments)
    (hlevel : level? settings arguments = some level) (hdocs : arguments.docs = none) :
    run host settings time words volume = { ending := .noPath, level, stage := { volume } } := by
  have hstart : start settings words = .noPath level := by
    simp only [start, hread, hlevel, hdocs]
  simp only [run, hstart]

/-- Documentation that cannot be read or decoded is told in one line. -/
theorem run_of_not_documents (hstart : start settings words = .begun path arguments level)
    (h : ¬ ∃ documented, Documents volume path documented) :
    ∃ line, run host settings time words volume =
      lineReport host.console level volume line := by
  rw [run_of_begun host time hstart]
  cases hread : volume.read path with
  | error fault =>
    have hmodules : modules host.wording path arguments
        ((volume.read path).mapError host.faultText) =
          .error (unreadableLine path (host.faultText fault)) := by
      rw [hread]
      rfl
    exact ⟨_, proceed_of_error host time hmodules⟩
  | ok bytes =>
    cases hload : loadPackage bytes with
    | error error =>
      have hmodules : modules host.wording path arguments
          ((volume.read path).mapError host.faultText) =
            .error (unreadableLine path (loadErrorText host.wording error)) := by
        rw [hread, Except.mapError, modules, hload]
      exact ⟨_, proceed_of_error host time hmodules⟩
    | ok documented => exact absurd ⟨documented, bytes, hread, hload⟩ h

/-- A session without modules to show ends at once, with one line. -/
theorem run_of_lacksModules (hstart : start settings words = .begun path arguments level)
    (h : LacksModules volume path arguments) :
    ∃ line, run host settings time words volume =
      lineReport host.console level volume line := by
  rcases h with hnone | ⟨documented, hdocuments, hvain⟩
  · exact run_of_not_documents host time hstart hnone
  · exact ⟨_, (hdocuments.opens hstart).run_of_asksInVain host time hvain⟩

-- ═════════════════════════════════════════════════════════════════════════════
-- To the end
-- ═════════════════════════════════════════════════════════════════════════════

variable {host} {time}

theorem lineReport_of_takes {line : Text} (h : host.console.Takes line) :
    lineReport host.console level volume line =
      { ending := .exit 1, level, stage := { volume, shown := [Shown.line line] } } := by
  rw [lineReport, h]

/-- Where no line is refused, only the files can fail. -/
theorem Finished.ending_cases (hconsole : ∀ markup, host.console.Takes markup)
    {shown : List (Shown σ)} {records : List Json} {report : Report σ}
    (h : Finished host time arguments level volume shown records report) :
    report.ending = .exit 0 ∨ (∃ fault, report.ending = .notWritten fault) ∨
      ∃ fault, report.ending = .notExported fault := by
  cases h with
  | notWritten => exact Or.inr (Or.inl ⟨_, rfl⟩)
  | notExported => exact Or.inr (Or.inr ⟨_, rfl⟩)
  | closed => exact Or.inl rfl
  | dataNotTold _ _ hline =>
    rw [hconsole] at hline
    exact absurd hline (by simp)
  | exportNotTold _ _ _ hline =>
    rw [hconsole] at hline
    exact absurd hline (by simp)

variable (host) (time)

/-- **Sessions end in few ways.** A session whose command line and level of logging can be
read, on a console that takes all markup, ends with status one if and only if there is no
documentation at its path, or none of the module asked for; then it shows one line and writes
nothing. In every other case it shows and records all modules asked for, and only behind them
writes its files: it ends with status zero, unless the data file or the page in HTML cannot be
written. Without a path to the documentation nothing is read or shown. -/
theorem run_ends (hread : CommandLine.read words = .run arguments)
    (hlevel : level? settings arguments = some level)
    (hconsole : ∀ markup, host.console.Takes markup) :
    let report := run host settings time words volume
    let alone := eventsAlone host.console host.wording settings arguments
    let recorded := IsRecord host.console host.wording settings arguments
    (arguments.docs = none → report = { ending := .noPath, level, stage := { volume } }) ∧
    ∀ path, arguments.docs = some path →
      (report.ending = .exit 1 ↔ LacksModules volume path arguments) ∧
      (LacksModules volume path arguments → ∃ line, report =
        { ending := .exit 1, level, stage := { volume, shown := [Shown.line line] } }) ∧
      ∀ documented, Documents volume path documented → ¬ AsksInVain arguments documented →
        let shown := (chosen arguments documented).flatMap alone
        (∀ s ∈ shown, ¬ s.event.IsExport) ∧
        (∃ records, List.Forall₂ recorded (chosen arguments documented) records ∧
          Finished host time arguments level volume shown records report) ∧
        (report.ending = .exit 0 ∨ (∃ fault, report.ending = .notWritten fault) ∨
          ∃ fault, report.ending = .notExported fault) := by
  intro report alone recorded
  refine ⟨run_of_docs_eq_none host time hread hlevel, ?_⟩
  intro path hdocs
  have hstart := start_eq_begun hread hlevel hdocs
  have hearly (h : LacksModules volume path arguments) : ∃ line, report =
      { ending := .exit 1, level, stage := { volume, shown := [Shown.line line] } } := by
    obtain ⟨line, hrun⟩ := run_of_lacksModules host time hstart h
    exact ⟨line, hrun.trans (lineReport_of_takes (hconsole line))⟩
  have hlate {documented : List ModuleDocs} (hdocuments : Documents volume path documented)
      (hvain : ¬ AsksInVain arguments documented) :
      ∃ records, List.Forall₂ recorded (chosen arguments documented) records ∧
        Finished host time arguments level volume
          ((chosen arguments documented).flatMap alone) records report := by
    obtain ⟨records, hrecords⟩ := exists_records host.console host.wording settings arguments
      (chosen arguments documented)
    have hcarried := (hdocuments.opens hstart).carried host time hvain
      (fun m _ fault _ => hconsole (failureLine host.wording m fault)) hrecords
    exact ⟨records, hrecords, hcarried.finished⟩
  refine ⟨⟨?_, ?_⟩, hearly, ?_⟩
  · intro hending
    by_contra h
    obtain ⟨documented, hdocuments, hvain⟩ := exists_documents h
    obtain ⟨records, -, hfinished⟩ := hlate hdocuments hvain
    have hcases := hfinished.ending_cases hconsole
    rw [hending] at hcases
    simp at hcases
  · intro h
    obtain ⟨line, hreport⟩ := hearly h
    exact congrArg Report.ending hreport
  · intro documented hdocuments hvain shown
    obtain ⟨records, hrecords, hfinished⟩ := hlate hdocuments hvain
    refine ⟨?_, ⟨records, hrecords, hfinished⟩, hfinished.ending_cases hconsole⟩
    intro s hs
    obtain ⟨m, -, hm⟩ := List.mem_flatMap.1 hs
    exact not_isExport_of_mem_eventsAlone hm

end

/-- A module whose styles are malformed is shown and recorded, and then the page in HTML
cannot be written: a file stands where its directory should be. -/
theorem run_ends_of_notExported :
    let documentation : Text :=
      "[\x7b\"name\":\"A\",\"values\":[\x7b\"name\":\"f\",\"type\":\"a\"\x7d]\x7d]".toList
    let a : ModuleDocs :=
      { name := "A".toList, values := [{ name := "f".toList, type := "a".toList }] }
    let volume : Volume := { files := [(["docs".toList], Text.toUtf8 documentation)] }
    let words := ["--docs", "docs", "--json=data", "--html=docs/page"].map String.toList
    let settings : Settings := { styles := { keyword := "[".toList } }
    let arguments : Arguments :=
      { docs := some "docs".toList, json := some "data".toList, html := some "docs/page".toList }
    let wording : Wording :=
      { notText := [], notData := [], pageFault := fun _ => "malformed".toList }
    let host := Host.plain wording fun _ => []
    (CommandLine.read words = .run arguments ∧ level? settings arguments = some .warning ∧
      ∀ markup, host.console.Takes markup) ∧
      (a.display host.console settings .usual).fault ≠ none ∧
      let report := run host settings [] words volume
      report.ending = .notExported .alreadyExists ∧
        report.stage.shown = eventsAlone host.console wording settings arguments a ++
          [Shown.line (savedLine "data".toList)] ∧
        report.stage.volume.read "data".toList = .ok (dataBytes [] report.stage.results) := by
  intro documentation a volume words settings arguments wording host
  have hread : CommandLine.read words = .run arguments := by decide +kernel
  have hlevel : level? settings arguments = some .warning := by decide +kernel
  have hconsole : ∀ markup, host.console.Takes markup := fun _ => rfl
  have hload : loadPackage (Text.toUtf8 documentation) = .ok [a] :=
    toOption_eq_some_iff.1 (by decide +kernel)
  have hbytes (contents : ByteArray) :
      ({ files := [(["docs".toList], contents)] } : Volume).read "docs".toList = .ok contents :=
    rfl
  obtain ⟨-, hpath⟩ := run_ends host [] hread hlevel hconsole
  obtain ⟨-, -, hdocumented⟩ := hpath "docs".toList rfl
  obtain ⟨-, ⟨records, -, hfinished⟩, -⟩ := hdocumented [a] ⟨_, hbytes _, hload⟩ (by decide)
  have hwrite (contents written : ByteArray) :
      ({ files := [(["docs".toList], contents)] } : Volume).write "data".toList written =
        .ok { files := [(["docs".toList], contents), (["data".toList], written)] } :=
    rfl
  have hexport (contents data written : ByteArray) :
      let saved : Volume :=
        { files := [(["docs".toList], contents), (["data".toList], data)] }
      saved.write "docs/page".toList written = .error ⟨.alreadyExists, saved⟩ :=
    rfl
  refine ⟨⟨hread, hlevel, hconsole⟩, by decide +kernel, ?_⟩
  have hchosen : chosen arguments [a] = [a] := chosen_eq_self rfl [a]
  rw [hchosen, List.flatMap_singleton] at hfinished
  generalize run host settings [] words volume = report at hfinished ⊢
  have hdata {saved : Volume} (hsaved : DataWritten [] arguments records volume saved) :
      { files := [(["docs".toList], Text.toUtf8 documentation),
        (["data".toList], dataBytes [] records)] } = saved :=
    Except.ok.inj ((hwrite _ _).symm.trans hsaved)
  cases hfinished with
  | notWritten hpath hfault =>
    obtain rfl : "data".toList = _ := Option.some.inj hpath
    exact absurd ((hwrite _ _).symm.trans hfault) (by simp)
  | dataNotTold _ _ hline => exact absurd ((hconsole _).symm.trans hline) (by simp)
  | notExported hsaved hpath hfault =>
    obtain rfl := hdata hsaved
    obtain rfl : "docs/page".toList = _ := Option.some.inj hpath
    obtain rfl := Except.error.inj ((hexport _ _ _).symm.trans hfault)
    exact ⟨rfl, rfl, rfl⟩
  | exportNotTold _ _ _ hline => exact absurd ((hconsole _).symm.trans hline) (by simp)
  | closed hsaved hleft =>
    obtain rfl := hdata hsaved
    exact absurd ((hexport _ _ _).symm.trans hleft) (by simp)

/-- A path to the documentation that is given without a value ends no session in one of the
ways above. -/
theorem not_run_ends_of_docs_without_value :
    ¬ ∀ (host : Host Style) (settings : Settings) (time : Text) (words : List Text)
      (volume : Volume) (arguments : Arguments) (level : LogLevel),
      CommandLine.read words = .run arguments → level? settings arguments = some level →
      (∀ markup, host.console.Takes markup) →
      let ending := (run host settings time words volume).ending
      (∃ status, ending = .exit status) ∨ (∃ fault, ending = .notWritten fault) ∨
        ∃ fault, ending = .notExported fault := by
  intro h
  let wording : Wording := { notText := [], notData := [], pageFault := fun _ => [] }
  let host := Host.plain wording fun _ => []
  have hread : CommandLine.read ["--docs=--".toList] = .run { docs := none } := by decide +kernel
  have hlevel : level? {} { docs := none } = some .warning := by decide +kernel
  have hending := h host {} [] ["--docs=--".toList] {} _ _ hread hlevel fun _ => rfl
  rw [run_of_docs_eq_none host [] hread hlevel rfl] at hending
  simp at hending

end Session

end PackageDocs
