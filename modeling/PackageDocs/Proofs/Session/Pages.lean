import Mathlib.Data.List.Forall2
import PackageDocs.Proofs.Except
import PackageDocs.Proofs.Page.Display
import PackageDocs.Session.Pages

/-!
# One module after the other

What a session shows and records of a module depends on that module alone: its page and its
record, or its page up to a fault, a line about the fault, and a record of it. One step adds
exactly this to any stage, and so all steps add what the modules give one by one. Only a line
that the console refuses keeps the modules behind it from being shown.

## Main definitions

- `Session.pageAlone`, `Session.eventsAlone`, `Session.IsRecord`: what is shown and recorded
  of one module
- `Session.Told`: the line about the fault of a module is taken
- `Session.Stage.extend`: a stage with more shown and recorded

## Main results

- `Session.step_of_told`, `Session.step_of_refusal`: one module
- `Session.showModules_of_told`, `Session.showModules_of_refusal`: all of them
- `Session.forall_told_or_exists_refusal`: there is no third way
-/

namespace PackageDocs

namespace Session

variable {σ : Type}

-- ═════════════════════════════════════════════════════════════════════════════
-- Stages
-- ═════════════════════════════════════════════════════════════════════════════

/-- The stage with more events shown and more records. -/
def Stage.extend (stage : Stage σ) (shown : List (Shown σ)) (results : List Json) : Stage σ :=
  { stage with shown := stage.shown ++ shown, results := stage.results ++ results }

theorem Stage.extend_extend (stage : Stage σ) (shown later : List (Shown σ))
    (results others : List Json) :
    (stage.extend shown results).extend later others =
      stage.extend (shown ++ later) (results ++ others) := by
  simp only [extend, List.append_assoc]

@[simp] theorem Stage.extend_nil (stage : Stage σ) : stage.extend [] [] = stage := by
  simp only [extend, List.append_nil]

theorem Stage.shows_eq_extend (stage : Stage σ) (device : Device) (events : List (Event σ)) :
    stage.shows device events = stage.extend (events.map (Shown.mk device)) [] := by
  simp only [shows, extend, List.append_nil]

theorem Stage.record_eq_extend (stage : Stage σ) (result : Json) :
    stage.record result = stage.extend [] [result] := by
  simp only [record, extend, List.append_nil]

-- ═════════════════════════════════════════════════════════════════════════════
-- Lines
-- ═════════════════════════════════════════════════════════════════════════════

/-- A line on the console. -/
def Shown.line (line : Text) : Shown σ :=
  { device := .console, event := .line line }

variable {console : Console σ}

theorem tell_of_takes {line : Text} (h : console.Takes line) (stage : Stage σ) :
    tell console line stage = .ok (stage.extend [Shown.line line] []) := by
  rw [tell, h]
  exact congrArg Except.ok (stage.shows_eq_extend ..)

theorem tell_of_refusal {line : Text} {fault : MalformedMarkup}
    (h : console.refusal? line = some fault) (stage : Stage σ) :
    tell console line stage = .error { ending := .notPrinted fault, stage } := by
  rw [tell, h]

-- ═════════════════════════════════════════════════════════════════════════════
-- One module
-- ═════════════════════════════════════════════════════════════════════════════

section

variable (console : Console σ) (wording : Wording) (settings : Settings) (arguments : Arguments)

/-- What is shown of a module's page. -/
def pageAlone (m : ModuleDocs) : List (Shown σ) :=
  (m.display console settings arguments.width).events.map (Shown.mk (pageDevice arguments))

/-- What is shown of a module: its page, and one line about the fault of the page if there
is one. -/
def eventsAlone (m : ModuleDocs) : List (Shown σ) :=
  pageAlone console settings arguments m ++
    ((m.display console settings arguments.width).fault.map fun fault =>
      Shown.line (failureLine wording m fault)).toList

/-- What is recorded of a module: its entries if its page was shown, and otherwise its name
and the fault. -/
def IsRecord (m : ModuleDocs) (record : Json) : Prop :=
  match (m.display console settings arguments.width).fault with
  | none => m.record settings arguments.width = .ok record
  | some fault =>
    record = .obj [
      ("name".toList, .str m.name),
      ("error".toList, .str (wording.pageFault fault))]

/-- The line about the fault of the module's page is taken, if there is a fault. -/
def Told (m : ModuleDocs) : Prop :=
  ∀ fault, (m.display console settings arguments.width).fault = some fault →
    console.Takes (failureLine wording m fault)

/-- The line about the fault of the module's page is refused. -/
def RefusedFor (m : ModuleDocs) (refusal : MalformedMarkup) : Prop :=
  ∃ fault, (m.display console settings arguments.width).fault = some fault ∧
    console.refusal? (failureLine wording m fault) = some refusal

end

variable {wording : Wording} {settings : Settings} {arguments : Arguments} {m : ModuleDocs}

/-- What is shown of a page depends on the files asked for only in where it is shown. -/
theorem map_event_pageAlone (m : ModuleDocs) :
    (pageAlone console settings arguments m).map Shown.event =
      (m.display console settings arguments.width).events := by
  rw [pageAlone, List.map_map]
  exact List.map_id _

theorem map_event_eventsAlone {arguments others : Arguments}
    (h : others.width = arguments.width) (m : ModuleDocs) :
    (eventsAlone console wording settings others m).map Shown.event =
      (eventsAlone console wording settings arguments m).map Shown.event := by
  rw [eventsAlone, eventsAlone, List.map_append, List.map_append, map_event_pageAlone,
    map_event_pageAlone, h]

theorem map_event_flatMap_eventsAlone (arguments others : Arguments)
    (h : others.width = arguments.width) (modules : List ModuleDocs) :
    (modules.flatMap (eventsAlone console wording settings others)).map Shown.event =
      (modules.flatMap (eventsAlone console wording settings arguments)).map Shown.event := by
  rw [List.map_flatMap, List.map_flatMap]
  exact congrArg (List.flatMap · modules) (funext fun m => map_event_eventsAlone h m)

theorem isRecord_of_fault_eq_none
    (h : (m.display console settings arguments.width).fault = none) {record : Json} :
    IsRecord console wording settings arguments m record ↔
      m.record settings arguments.width = .ok record := by
  rw [IsRecord, h]

theorem isRecord_of_fault {fault : PageFault}
    (h : (m.display console settings arguments.width).fault = some fault) {record : Json} :
    IsRecord console wording settings arguments m record ↔
      record = errorRecord wording m fault := by
  rw [IsRecord, h, errorRecord]

/-- Only the page of a module is at fault, never its record. -/
theorem exists_isRecord (console : Console σ) (wording : Wording) (settings : Settings)
    (arguments : Arguments) (m : ModuleDocs) :
    ∃ record, IsRecord console wording settings arguments m record := by
  cases hfault : (m.display console settings arguments.width).fault with
  | none =>
    obtain ⟨record, hrecord⟩ := ModuleDocs.exists_record_of_display hfault
    exact ⟨record, (isRecord_of_fault_eq_none hfault).2 hrecord⟩
  | some fault => exact ⟨_, (isRecord_of_fault hfault).2 rfl⟩

theorem exists_records (console : Console σ) (wording : Wording) (settings : Settings)
    (arguments : Arguments) (modules : List ModuleDocs) :
    ∃ records, List.Forall₂ (IsRecord console wording settings arguments) modules records := by
  choose record hrecord using exists_isRecord console wording settings arguments
  refine ⟨modules.map record, ?_⟩
  rw [List.forall₂_map_right_iff, List.forall₂_same]
  exact fun m _ => hrecord m

theorem attempt_of_fault_eq_none
    (h : (m.display console settings arguments.width).fault = none) {record : Json}
    (hrecord : m.record settings arguments.width = .ok record) (stage : Stage σ) :
    attempt console settings arguments stage m =
      (stage.extend (pageAlone console settings arguments m) [record], none) := by
  rw [attempt, h, hrecord, Stage.shows_eq_extend]
  dsimp only
  rw [Stage.record_eq_extend, Stage.extend_extend, List.append_nil, List.nil_append]
  rfl

theorem attempt_of_fault {fault : PageFault}
    (h : (m.display console settings arguments.width).fault = some fault) (stage : Stage σ) :
    attempt console settings arguments stage m =
      (stage.extend (pageAlone console settings arguments m) [], some fault) := by
  rw [attempt, h, Stage.shows_eq_extend]
  rfl

/-- One step shows and records its module, whatever was shown and recorded before. -/
theorem step_of_told (h : Told console wording settings arguments m) {record : Json}
    (hrecord : IsRecord console wording settings arguments m record) (stage : Stage σ) :
    step console wording settings arguments stage m =
      .ok (stage.extend (eventsAlone console wording settings arguments m) [record]) := by
  cases hfault : (m.display console settings arguments.width).fault with
  | none =>
    have hattempt :=
      attempt_of_fault_eq_none hfault ((isRecord_of_fault_eq_none hfault).1 hrecord) stage
    rw [step, hattempt, eventsAlone, hfault]
    exact congrArg (fun shown => Except.ok (stage.extend shown [record]))
      (List.append_nil _).symm
  | some fault =>
    obtain rfl := (isRecord_of_fault hfault).1 hrecord
    rw [step, attempt_of_fault hfault, eventsAlone, hfault]
    dsimp only
    rw [tell_of_takes (h fault hfault), ok_bind, Stage.extend_extend, Stage.record_eq_extend,
      Stage.extend_extend, List.append_nil]
    rfl

/-- A step whose line is refused ends the session with the page as far as it was shown. -/
theorem step_of_refusal {refusal : MalformedMarkup}
    (h : RefusedFor console wording settings arguments m refusal) (stage : Stage σ) :
    step console wording settings arguments stage m =
      .error {
        ending := .notPrinted refusal
        stage := stage.extend (pageAlone console settings arguments m) [] } := by
  obtain ⟨fault, hfault, hrefusal⟩ := h
  rw [step, attempt_of_fault hfault]
  dsimp only
  rw [tell_of_refusal hrefusal]
  rfl

-- ═════════════════════════════════════════════════════════════════════════════
-- All modules
-- ═════════════════════════════════════════════════════════════════════════════

/-- What is shown and recorded is what the modules give one by one, in their order. -/
theorem showModules_of_told {modules : List ModuleDocs} {records : List Json}
    (h : ∀ m ∈ modules, Told console wording settings arguments m)
    (hrecords : List.Forall₂ (IsRecord console wording settings arguments) modules records)
    (stage : Stage σ) :
    showModules console wording settings arguments modules stage =
      .ok (stage.extend (modules.flatMap (eventsAlone console wording settings arguments))
        records) := by
  induction hrecords generalizing stage with
  | nil => exact congrArg Except.ok stage.extend_nil.symm
  | @cons m record rest records hrecord hrecords ih =>
    rw [List.forall_mem_cons] at h
    have hrest := ih h.2 (stage.extend (eventsAlone console wording settings arguments m) [record])
    rw [showModules] at hrest
    rw [showModules, List.foldlM_cons, step_of_told h.1 hrecord, ok_bind, hrest,
      Stage.extend_extend, List.flatMap_cons, List.singleton_append]

theorem showModules_append (before after : List ModuleDocs) (stage : Stage σ) :
    showModules console wording settings arguments (before ++ after) stage =
      showModules console wording settings arguments before stage >>=
        showModules console wording settings arguments after :=
  List.foldlM_append ..

/-- The first line that is refused ends the session. The modules in front of it are shown and
recorded, and the page in question is shown. -/
theorem showModules_of_refusal {before after : List ModuleDocs} {records : List Json}
    {refusal : MalformedMarkup}
    (hbefore : ∀ m ∈ before, Told console wording settings arguments m)
    (hrecords : List.Forall₂ (IsRecord console wording settings arguments) before records)
    (h : RefusedFor console wording settings arguments m refusal) (stage : Stage σ) :
    showModules console wording settings arguments (before ++ m :: after) stage =
      .error {
        ending := .notPrinted refusal
        stage := stage.extend
          (before.flatMap (eventsAlone console wording settings arguments) ++
            pageAlone console settings arguments m) records } := by
  rw [showModules_append, showModules_of_told hbefore hrecords, ok_bind, showModules,
    List.foldlM_cons, step_of_refusal h, Stage.extend_extend, List.append_nil]
  rfl

/-- All lines are taken, or one of them is the first to be refused. -/
theorem forall_told_or_exists_refusal (console : Console σ) (wording : Wording)
    (settings : Settings) (arguments : Arguments) (modules : List ModuleDocs) :
    (∀ m ∈ modules, Told console wording settings arguments m) ∨
      ∃ before m after refusal, modules = before ++ m :: after ∧
        (∀ m ∈ before, Told console wording settings arguments m) ∧
        RefusedFor console wording settings arguments m refusal := by
  induction modules with
  | nil => exact Or.inl fun m hm => absurd hm List.not_mem_nil
  | cons m rest ih =>
    by_cases htold : Told console wording settings arguments m
    · rcases ih with hall | ⟨before, other, after, refusal, rfl, hbefore, hrefusal⟩
      · exact Or.inl (List.forall_mem_cons.2 ⟨htold, hall⟩)
      · exact Or.inr ⟨m :: before, other, after, refusal, rfl,
          List.forall_mem_cons.2 ⟨htold, hbefore⟩, hrefusal⟩
    · obtain ⟨fault, hfault⟩ := not_forall.1 htold
      obtain ⟨hfault, hrefused⟩ := Classical.not_imp.1 hfault
      obtain ⟨refusal, hrefusal⟩ := Option.ne_none_iff_exists'.1 hrefused
      exact Or.inr ⟨[], m, rest, refusal, rfl, fun m hm => absurd hm List.not_mem_nil,
        fault, hfault, hrefusal⟩

end Session

end PackageDocs
