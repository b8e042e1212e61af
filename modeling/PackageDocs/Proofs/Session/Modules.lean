import PackageDocs.Proofs.Session.Files

/-!
# Modules in a session

A session shows and records its modules one after the other, each as if it were alone. A
fault of one page is told in one line and in the record of that module; it touches no other
module. Neither a data file nor a page in HTML changes what is shown of the modules.

All this is about consoles that take the lines about faults. Where such a line is refused the
session is over: the modules in front were shown as ever, and nothing is written.

## Main definitions

- `Session.chosen`, `Session.AsksInVain`: the modules that the arguments ask for
- `Session.Opens`: a session finds modules documented
- `Session.lineReport`: a session that is over with one line

## Main results

- `Session.Opens.carried`: modules whose lines are taken
- `Session.Opens.run_of_refusal`: a module whose line is refused
- `Session.run_opened`: what a session shows and records, and what that depends on
-/

namespace PackageDocs

namespace Session

-- ═════════════════════════════════════════════════════════════════════════════
-- The modules asked for
-- ═════════════════════════════════════════════════════════════════════════════

/-- The name of the module asked for; the empty name asks for all modules. -/
def nameAsked (arguments : Arguments) : Text :=
  arguments.module.getD []

/-- The documented modules that the arguments ask for, in their order. -/
def chosen (arguments : Arguments) (documented : List ModuleDocs) : List ModuleDocs :=
  documented.filter fun m => nameAsked arguments = [] ∨ m.name = nameAsked arguments

variable {settings : Settings} {words : List Text} {volume : Volume} {arguments : Arguments}
  {level : LogLevel} {documented : List ModuleDocs}

theorem nameAsked_eq_of_some {name : Text} (h : arguments.module = some name) :
    nameAsked arguments = name := by
  rw [nameAsked, h, Option.getD_some]

theorem chosen_eq_self (h : nameAsked arguments = []) (documented : List ModuleDocs) :
    chosen arguments documented = documented := by
  simp [chosen, h]

theorem selected_eq_chosen (arguments : Arguments) (documented : List ModuleDocs) :
    selected arguments documented = chosen arguments documented := by
  rw [selected]
  split
  · next hmodule => exact (chosen_eq_self (by rw [nameAsked, hmodule, Option.getD_none]) _).symm
  · next hmodule => exact (chosen_eq_self (nameAsked_eq_of_some hmodule) _).symm
  · next name hnonempty hmodule =>
    have hne : name ≠ [] := hnonempty
    simp [chosen, nameAsked_eq_of_some hmodule, hne, ← beq_eq_decide]

/-- A module is asked for that is not documented. -/
def AsksInVain (arguments : Arguments) (documented : List ModuleDocs) : Prop :=
  nameAsked arguments ≠ [] ∧ chosen arguments documented = []

instance : Decidable (AsksInVain arguments documented) :=
  inferInstanceAs (Decidable (_ ∧ _))

/-- The modules asked for are to be shown, unless one is asked for in vain. -/
theorem modules_eq {bytes : ByteArray} (hload : loadPackage bytes = .ok documented)
    (wording : Wording) (path : Text) (arguments : Arguments) :
    modules wording path arguments (.ok bytes) =
      if AsksInVain arguments documented then .error (notFoundLine (nameAsked arguments))
      else .ok (chosen arguments documented) := by
  rw [modules, hload]
  dsimp only
  rw [selected_eq_chosen]
  split
  · next c name hnil hmodule =>
    have hname := nameAsked_eq_of_some hmodule
    rw [if_pos ⟨by simp [hname], hnil⟩, hname]
  · next hnonempty =>
    rw [if_neg]
    rintro ⟨hname, hnil⟩
    cases hmodule : arguments.module with
    | none => exact hname (by rw [nameAsked, hmodule, Option.getD_none])
    | some name =>
      cases name with
      | nil => exact hname (nameAsked_eq_of_some hmodule)
      | cons c name => exact hnonempty c name hnil hmodule

-- ═════════════════════════════════════════════════════════════════════════════
-- Whole sessions
-- ═════════════════════════════════════════════════════════════════════════════

/-- The session begins with these arguments, at this level of logging, and finds these
modules documented. -/
def Opens (settings : Settings) (words : List Text) (volume : Volume) (arguments : Arguments)
    (level : LogLevel) (documented : List ModuleDocs) : Prop :=
  ∃ path bytes, start settings words = .begun path arguments level ∧
    volume.read path = .ok bytes ∧ loadPackage bytes = .ok documented

/-- A session that is over with one line has the exit status one, unless the line is
refused. It leaves the volume as it was. -/
def lineReport {σ : Type} (console : Console σ) (level : LogLevel) (volume : Volume)
    (line : Text) : Report σ :=
  match console.refusal? line with
  | none => { ending := .exit 1, level, stage := { volume, shown := [Shown.line line] } }
  | some refusal => { ending := .notPrinted refusal, level, stage := { volume } }

theorem shown_lineReport {σ : Type} (console : Console σ) (level : LogLevel) (volume : Volume)
    (line : Text) :
    (lineReport console level volume line).stage.shown =
      if console.Takes line then [Shown.line line] else [] := by
  cases hline : console.refusal? line <;> simp [lineReport, Console.Takes, hline]

section

variable {σ : Type} (host : Host σ) (time : Text)

theorem run_of_begun {path : Text} (h : start settings words = .begun path arguments level) :
    run host settings time words volume =
      conclude level (proceed host settings time path arguments { volume }) := by
  simp only [run, h]

/-- Without modules to show there is only the line that says why. -/
theorem proceed_of_error {path line : Text}
    (h : modules host.wording path arguments ((volume.read path).mapError host.faultText) =
      .error line) :
    conclude level (proceed host settings time path arguments { volume }) =
      lineReport host.console level volume line := by
  rw [proceed, h, lineReport]
  dsimp only
  cases hline : host.console.refusal? line with
  | none =>
    rw [tell_of_takes hline]
    rfl
  | some refusal =>
    rw [tell_of_refusal hline]
    rfl

theorem Opens.run_of_asksInVain (h : Opens settings words volume arguments level documented)
    (hvain : AsksInVain arguments documented) :
    run host settings time words volume =
      lineReport host.console level volume (notFoundLine (nameAsked arguments)) := by
  obtain ⟨path, bytes, hstart, hread, hload⟩ := h
  rw [run_of_begun host time hstart]
  apply proceed_of_error
  rw [hread]
  exact (modules_eq hload host.wording path arguments).trans (if_pos hvain)

theorem Opens.run_eq (h : Opens settings words volume arguments level documented)
    (hvain : ¬ AsksInVain arguments documented) :
    run host settings time words volume =
      conclude level (showModules host.console host.wording settings arguments
        (chosen arguments documented) { volume } >>= fun stage =>
          save host time arguments stage >>= exportPages host arguments) := by
  obtain ⟨path, bytes, hstart, hread, hload⟩ := h
  have hmodules : modules host.wording path arguments
      ((volume.read path).mapError host.faultText) = .ok (chosen arguments documented) := by
    rw [hread]
    exact (modules_eq hload host.wording path arguments).trans (if_neg hvain)
  rw [run_of_begun host time hstart, proceed, hmodules]

/-- Modules whose lines are taken are shown and recorded, and the session goes on to its
files. -/
theorem Opens.carried (h : Opens settings words volume arguments level documented)
    (hvain : ¬ AsksInVain arguments documented)
    (htold : ∀ m ∈ chosen arguments documented,
      Told host.console host.wording settings arguments m)
    {records : List Json}
    (hrecords : List.Forall₂ (IsRecord host.console host.wording settings arguments)
      (chosen arguments documented) records) :
    Carried host time arguments level volume
      ((chosen arguments documented).flatMap
        (eventsAlone host.console host.wording settings arguments))
      records (run host settings time words volume) := by
  rw [h.run_eq host time hvain, showModules_of_told htold hrecords, ok_bind, Stage.extend,
    List.nil_append, List.nil_append]
  exact finished_conclude.carried

theorem not_asksInVain {before after : List ModuleDocs} {m : ModuleDocs}
    (h : chosen arguments documented = before ++ m :: after) :
    ¬ AsksInVain arguments documented := by
  rintro ⟨-, hnil⟩
  rw [hnil] at h
  exact absurd h (by simp)

/-- The first line that is refused ends the session before any file is written. -/
theorem Opens.run_of_refusal (h : Opens settings words volume arguments level documented)
    {before after : List ModuleDocs} {m : ModuleDocs} {refusal : MalformedMarkup}
    (hchosen : chosen arguments documented = before ++ m :: after)
    (hbefore : ∀ m ∈ before, Told host.console host.wording settings arguments m)
    {records : List Json}
    (hrecords : List.Forall₂ (IsRecord host.console host.wording settings arguments)
      before records)
    (hrefusal : RefusedFor host.console host.wording settings arguments m refusal) :
    run host settings time words volume = {
      ending := .notPrinted refusal, level
      stage := {
        volume
        shown := before.flatMap (eventsAlone host.console host.wording settings arguments) ++
          pageAlone host.console settings arguments m
        results := records } } := by
  rw [h.run_eq host time (not_asksInVain hchosen), hchosen,
    showModules_of_refusal hbefore hrecords hrefusal]
  rfl

/-- Where a module stands among the modules asked for, its events and its record stand among
those of the session, and what stands before and behind depends on the other modules only. -/
theorem Opens.carried_around (h : Opens settings words volume arguments level documented)
    {before after : List ModuleDocs} {m : ModuleDocs}
    (hchosen : chosen arguments documented = before ++ m :: after)
    (htold : ∀ m ∈ chosen arguments documented,
      Told host.console host.wording settings arguments m)
    {above below : List Json} {record : Json}
    (habove : List.Forall₂ (IsRecord host.console host.wording settings arguments) before above)
    (hrecord : IsRecord host.console host.wording settings arguments m record)
    (hbelow : List.Forall₂ (IsRecord host.console host.wording settings arguments) after below) :
    Carried host time arguments level volume
      (before.flatMap (eventsAlone host.console host.wording settings arguments) ++
        eventsAlone host.console host.wording settings arguments m ++
        after.flatMap (eventsAlone host.console host.wording settings arguments))
      (above ++ record :: below) (run host settings time words volume) := by
  have hrecords : List.Forall₂ (IsRecord host.console host.wording settings arguments)
      (before ++ m :: after) (above ++ record :: below) :=
    List.rel_append habove (.cons hrecord hbelow)
  rw [← hchosen] at hrecords
  have hcarried := h.carried host time (not_asksInVain hchosen) htold hrecords
  rwa [hchosen, List.flatMap_append, List.flatMap_cons, ← List.append_assoc] at hcarried

/-- The events of a session are those of the session without files, and then some of those
that close it. -/
theorem Opens.exists_closing (h : Opens settings words volume arguments level documented)
    {words' : List Text} {volume' : Volume} {level' : LogLevel} {docs : Option Text}
    (h' : Opens settings words' volume' { arguments with docs, html := none, json := none }
      level' documented) :
    ∃ rest, rest <+: (closing arguments).map Shown.event ∧
      (run host settings time words volume).stage.shown.map Shown.event =
        (run host settings time words' volume').stage.shown.map Shown.event ++ rest := by
  have hnone : [] <+: (closing arguments : List (Shown σ)).map Shown.event := List.nil_prefix
  -- the files asked for only say where a page is shown
  have hsame (modules : List ModuleDocs) :
      (modules.flatMap (eventsAlone host.console host.wording settings
        { arguments with docs, html := none, json := none })).map Shown.event =
        (modules.flatMap (eventsAlone host.console host.wording settings arguments)).map
          Shown.event :=
    map_event_flatMap_eventsAlone arguments { arguments with docs, html := none, json := none }
      rfl modules
  by_cases hvain : AsksInVain arguments documented
  · refine ⟨[], hnone, ?_⟩
    rw [h.run_of_asksInVain host time hvain, h'.run_of_asksInVain host time hvain,
      shown_lineReport, shown_lineReport, List.append_nil]
    rfl
  rcases forall_told_or_exists_refusal host.console host.wording settings arguments
      (chosen arguments documented) with
    htold | ⟨before, m, after, refusal, hchosen, hbefore, hrefusal⟩
  · obtain ⟨records, hrecords⟩ := exists_records host.console host.wording settings arguments
      (chosen arguments documented)
    obtain ⟨rest, hrest, hshown⟩ :=
      (h.carried host time hvain htold hrecords).finished.exists_closing
    obtain ⟨closed, hclosed, hshown'⟩ :=
      (h'.carried host time hvain htold hrecords).finished.exists_closing
    -- without files nothing is shown at the end
    obtain rfl : closed = [] := List.prefix_nil.1 hclosed
    refine ⟨rest.map Shown.event, hrest.map _, ?_⟩
    rw [hshown, hshown', List.append_nil, List.map_append]
    exact congrArg (· ++ _) (hsame _).symm
  · obtain ⟨records, hrecords⟩ :=
      exists_records host.console host.wording settings arguments before
    refine ⟨[], hnone, ?_⟩
    rw [h.run_of_refusal host time hchosen hbefore hrecords hrefusal,
      h'.run_of_refusal host time hchosen hbefore hrecords hrefusal, List.append_nil]
    dsimp only
    rw [List.map_append, List.map_append, map_event_pageAlone, map_event_pageAlone]
    exact congrArg (· ++ _) (hsame _).symm

end

end Session

end PackageDocs
