import Mathlib.Data.List.TakeWhile
import YamlDefs.Session
import YamlDefs.Proofs.FirstFault

/-!
# What the steps of a session add

A step adds units behind those that stand in its output, and comes to a rejection or to none.
Neither depends on what stands there, so that the reports of a session are those of its steps,
each alone on an empty output, put one behind the other.

* `Writing.adding`: steps of that form; two of them in a row are one again.
* `walk_eq_adding`: the walk over named nodes is one: it adds the units before the first fault.
* `Step.units`, `Step.Adds`: what a step writes if it passes, and what is left of that if not.
* `runUntilRejected`: steps up to the first that is rejected. With the entries of a root mapping
  as steps it is the declaration of the document.
* `runSteps_eq_alone`: the frame law of sessions, for all steps in any order.
-/

namespace YamlDefs

/-! ## Steps that add units -/

theorem Output.append_append (out : Output) (us vs : List Declaration) :
    (out.append us).append vs = out.append (us ++ vs) := by
  simp [append, ← Array.toList_inj]

namespace Writing

/-- Adds units and comes to a rejection or to none, whatever has been written before. -/
def adding (units : List Declaration) (rejection : Option Rejection) : Writing Unit := fun out =>
  match rejection with
  | none => .ok () (out.append units)
  | some cause => .error cause (out.append units)

theorem push_eq_adding (unit : Declaration) : push unit = adding [unit] none := by
  funext out
  simp only [push, adding, ← Output.append_push, Output.append_nil]

theorem require_eq_adding (rejection : Option Rejection) :
    require (verdict rejection) = adding [] rejection := by
  funext out
  cases rejection <;> simp [require, verdict, adding]

theorem adding_bind_adding (us vs : List Declaration) (rejection : Option Rejection) :
    (do adding us none; adding vs rejection) = adding (us ++ vs) rejection := by
  funext out
  simp only [adding, ← Output.append_append]
  rfl

theorem adding_bind_of_rejected (us : List Declaration) (cause : Rejection) (k : Writing Unit) :
    (do adding us (some cause); k) = adding us (some cause) := rfl

end Writing

open Writing

/-- The unit that stands behind a check: it is written if the check passes. -/
def unitsBehind (rejection : Option Rejection) (unit : Declaration) : List Declaration :=
  if rejection.isNone then [unit] else []

theorem require_push_eq_adding (rejection : Option Rejection) (unit : Declaration) :
    (do require (verdict rejection); push unit) =
      adding (unitsBehind rejection unit) rejection := by
  rw [require_eq_adding, push_eq_adding]
  cases rejection with
  | none => exact adding_bind_adding [] [unit] none
  | some cause => exact adding_bind_of_rejected [] cause _

theorem require_require (a b : Option Rejection) (k : Writing Unit) :
    (do require (verdict a); require (verdict b); k) = (do require (verdict (a.or b)); k) := by
  funext out
  cases a <;> rfl

theorem declareConstant_eq_adding (limit depth : Nat) (name : String) (value : Node) :
    ∃ rejection, declareConstant limit depth name value =
      adding (unitsBehind rejection (.constant name value)) rejection := by
  rw [declareConstant, checkName_eq limit, checkValue_eq, require_require]
  exact ⟨_, require_push_eq_adding _ _⟩

theorem declareEvaluation_eq_adding (name : String) :
    ∃ rejection, declareEvaluation name =
      adding (unitsBehind rejection (.evaluation name)) rejection := by
  rw [declareEvaluation, checkName_eq 0]
  exact ⟨_, require_push_eq_adding _ _⟩

/-- The units of named nodes up to the first with a fault. -/
def unitsBeforeFault (limit : Nat) (nodes : List Named) : List Declaration :=
  (nodes.takeWhile fun n => (n.fault? limit).isNone).map Named.unit

theorem unitsBeforeFault_cons (limit : Nat) (n : Named) (rest : List Named) :
    unitsBeforeFault limit (n :: rest) = unitsBehind (n.fault? limit) n.unit ++
      if (n.fault? limit).isNone then unitsBeforeFault limit rest else [] := by
  cases h : n.fault? limit <;> simp [unitsBeforeFault, unitsBehind, h]

/-- A walk adds the units of the named nodes before the first with a fault, and comes to that
fault. -/
theorem walk_eq_adding (limit : Nat) (nodes : List Named) :
    walk limit nodes =
      adding (unitsBeforeFault limit nodes) (firstFault? limit (nodes.flatMap Named.checks)) := by
  induction nodes with
  | nil =>
    funext out
    simp [walk, adding, unitsBeforeFault, pure, EStateM.pure]
  | cons n rest ih =>
    have hvisit : visit limit n = adding (unitsBehind (n.fault? limit) n.unit) (n.fault? limit) :=
      require_push_eq_adding _ _
    rw [walk, List.forM_cons, ← walk, ih, hvisit, List.flatMap_cons, firstFault?_append,
      ← Named.fault?, unitsBeforeFault_cons]
    cases n.fault? limit with
    | none => exact adding_bind_adding _ _ _
    | some cause =>
      simp only [Option.isNone_some, Bool.false_eq_true, if_false, List.append_nil]
      exact adding_bind_of_rejected _ _ _

/-- What a walk leaves out are the units from the first named node with a fault on. -/
theorem exists_unitsBeforeFault_append (limit : Nat) (nodes : List Named) :
    ∃ left, nodes.map Named.unit = unitsBeforeFault limit nodes ++ left ∧
      (left = [] ↔ firstFault? limit (nodes.flatMap Named.checks) = none) := by
  refine ⟨(nodes.dropWhile fun n => (n.fault? limit).isNone).map Named.unit, ?_, ?_⟩
  · rw [unitsBeforeFault, ← List.map_append, List.takeWhile_append_dropWhile]
  · rw [List.map_eq_nil_iff, List.dropWhile_eq_nil_iff, firstFault?_eq_none_iff,
      List.forall_mem_flatMap]
    simp only [Option.isNone_iff_eq_none, Named.fault?, firstFault?_eq_none_iff]

/-! ## Steps of a session -/

/-- The units that a step writes if it is not rejected. -/
def Step.units : Step → List Declaration
  | line text => [.line text]
  | structureNamed name => [.structureNamed name]
  | checkName _ | checkDepth _ | checkValue _ _ => []
  | constant _ name value => [.constant name value]
  | evaluation name => [.evaluation name]
  | node depth name value => (value.named depth name).map Named.unit

/-- What a step may have added when it comes to a rejection or to none. A step that is rejected
leaves none of its units, but for the declaration of a node, which leaves some at their head. -/
def Step.Adds : Step → Option Rejection → List Declaration → Prop
  | step, none, added => added = step.units
  | line _, some _, _ | structureNamed _, some _, _ => False
  | node depth name value, some _, added =>
    ∃ left, left ≠ [] ∧ (node depth name value).units = added ++ left
  | _, some _, added => added = []

/-- The units that a step adds to an empty output. -/
def Step.added (limit : Nat) (step : Step) : List Declaration :=
  (step.report limit .empty).output.units.toList

/-- The report of what came of writing on an output. -/
def Writing.report (writing : Writing Unit) (out : Output) : Report :=
  match writing out with
  | .ok () after => ⟨none, after⟩
  | .error cause after => ⟨some cause, after⟩

theorem Step.report_eq (limit : Nat) (step : Step) (out : Output) :
    step.report limit out = (step.run limit).report out := rfl

theorem Writing.report_adding (units : List Declaration) (rejection : Option Rejection)
    (out : Output) : (adding units rejection).report out = ⟨rejection, out.append units⟩ := by
  cases rejection <;> rfl

/-- What comes of one writing after another: the second begins where the first is not rejected. -/
theorem Writing.report_bind (first second : Writing Unit) (out : Output) :
    (do first; second : Writing Unit).report out =
      match (first.report out).rejection with
      | none => second.report (first.report out).output
      | some _ => first.report out := by
  simp only [report, bind, EStateM.bind]
  cases first out <;> rfl

theorem Step.node_adds (limit depth : Nat) (name : String) (value : Node) :
    (Step.node depth name value).Adds
      (firstFault? limit ((value.named depth name).flatMap Named.checks))
      (unitsBeforeFault limit (value.named depth name)) := by
  obtain ⟨left, hunits, hleft⟩ := exists_unitsBeforeFault_append limit (value.named depth name)
  cases hf : firstFault? limit ((value.named depth name).flatMap Named.checks) with
  | none =>
    rw [hleft.mpr hf, List.append_nil] at hunits
    exact hunits.symm
  | some cause =>
    refine ⟨left, fun h => ?_, hunits⟩
    rw [hleft.mp h] at hf
    cases hf

/-- Every step adds units and comes to a rejection or to none, whatever stands in its output. -/
theorem Step.exists_adding (limit : Nat) (step : Step) :
    ∃ units rejection, step.run limit = adding units rejection ∧ step.Adds rejection units := by
  cases step with
  | line text => exact ⟨_, _, push_eq_adding _, rfl⟩
  | structureNamed name => exact ⟨_, _, push_eq_adding _, rfl⟩
  | checkName name =>
    refine ⟨[], _, (congrArg require (checkName_eq limit name)).trans (require_eq_adding _), ?_⟩
    cases (Check.name name).fault? limit <;> rfl
  | checkDepth depth =>
    refine ⟨[], _, (congrArg require (checkDepth_eq limit depth)).trans (require_eq_adding _), ?_⟩
    cases (Check.depth depth).fault? limit <;> rfl
  | checkValue depth value =>
    refine ⟨[], _, (congrArg require (checkValue_eq limit depth value)).trans
      (require_eq_adding _), ?_⟩
    cases firstFault? limit (valueChecks depth value) <;> rfl
  | constant depth name value =>
    obtain ⟨rejection, h⟩ := declareConstant_eq_adding limit depth name value
    refine ⟨_, rejection, h, ?_⟩
    cases rejection <;> rfl
  | evaluation name =>
    obtain ⟨rejection, h⟩ := declareEvaluation_eq_adding name
    refine ⟨_, rejection, h, ?_⟩
    cases rejection <;> rfl
  | node depth name value =>
    exact ⟨_, _, (declareNode_eq_walk limit depth name value).trans (walk_eq_adding limit _),
      node_adds limit depth name value⟩

/-! ## The frame law -/

/-- The report of a step is that of the step alone on an empty output, with the units it adds there
behind those that stand in the output. -/
theorem Step.report_eq_alone (limit : Nat) (step : Step) (out : Output) :
    step.report limit out =
      ⟨(step.report limit .empty).rejection, out.append (step.added limit)⟩ := by
  obtain ⟨units, rejection, h, -⟩ := step.exists_adding limit
  simp only [added, report_eq, h, report_adding, Output.toList_units_append,
    Output.toList_units_empty, List.nil_append]

theorem Step.adds_added (limit : Nat) (step : Step) :
    step.Adds (step.report limit .empty).rejection (step.added limit) := by
  obtain ⟨units, rejection, h, hadds⟩ := step.exists_adding limit
  simpa only [added, report_eq, h, report_adding, Output.toList_units_append,
    Output.toList_units_empty, List.nil_append] using hadds

theorem runSteps_eq_mapIdx (limit : Nat) (out : Output) (steps : List Step) :
    runSteps limit out steps = steps.mapIdx fun i step =>
      ⟨(step.report limit .empty).rejection,
        out.append ((steps.take (i + 1)).flatMap (Step.added limit))⟩ := by
  induction steps generalizing out with
  | nil => rfl
  | cons step rest ih =>
    rw [runSteps, ih, List.mapIdx_cons, Step.report_eq_alone]
    simp [Output.append_append]

/-- The output after the steps of a session. -/
def outputAfter (limit : Nat) (out : Output) (steps : List Step) : Output :=
  ((runSteps limit out steps).map Report.output).getLastD out

theorem outputAfter_eq (limit : Nat) (out : Output) (steps : List Step) :
    outputAfter limit out steps = out.append (steps.flatMap (Step.added limit)) := by
  induction steps generalizing out with
  | nil => exact out.append_nil.symm
  | cons step rest ih =>
    have hrest := ih (step.report limit out).output
    rw [outputAfter, runSteps, List.map_cons, List.getLastD_cons, ← outputAfter, hrest,
      Step.report_eq_alone, Output.append_append, List.flatMap_cons]

/-- Runs steps one after the other up to the first that is rejected. -/
def runUntilRejected (limit : Nat) (out : Output) : List Step → Report
  | [] => ⟨none, out⟩
  | step :: rest =>
    let report := step.report limit out
    match report.rejection with
    | none => runUntilRejected limit report.output rest
    | some _ => report

/-- The steps that declare the entries of a root mapping one by one. -/
def entrySteps (entries : List (String × Node)) : List Step :=
  entries.map fun e => .node 1 e.1 e.2

/-- What a document comes to by the report of its last step: the text of all units, unless that step
is rejected. -/
def Report.result (report : Report) : Except Rejection String :=
  match report.rejection with
  | none => .ok report.output.text
  | some cause => .error cause

/-- Feeding entries one by one up to the first error is declaring them. -/
theorem runUntilRejected_eq_report (limit : Nat) (out : Output)
    (entries : List (String × Node)) :
    runUntilRejected limit out (entrySteps entries) =
      (declareEntries limit 1 entries).report out := by
  induction entries generalizing out with
  | nil => rfl
  | cons e rest ih =>
    rw [entrySteps, List.map_cons, ← entrySteps, runUntilRejected, Step.report_eq, Step.run,
      declareEntries, report_bind]
    cases ((declareNode limit 1 e.1 e.2).report out).rejection with
    | none => exact ih _
    | some cause => rfl

theorem runUntilRejected_entrySteps (limit : Nat) (out : Output) (entries : List (String × Node)) :
    runUntilRejected limit out (entrySteps entries) =
      ⟨firstFault? limit ((namedEntries 1 entries).flatMap Named.checks),
        out.append (unitsBeforeFault limit (namedEntries 1 entries))⟩ := by
  rw [runUntilRejected_eq_report, declareEntries_eq_walk limit 1 entries fun e _ =>
    declareNode_eq_walk limit 1 e.1 e.2, walk_eq_adding, report_adding]

theorem compileNode_mapping_eq_result (limit : Nat) (entries : List (String × Node)) :
    compileNode limit (.mapping entries) =
      (runUntilRejected limit .empty (entrySteps entries)).result := by
  have hdecl : compileNode limit (.mapping entries) =
      match declareEntries limit 1 entries .empty with
      | .ok () out => .ok out.text
      | .error cause _ => .error cause := rfl
  rw [runUntilRejected_eq_report, report, hdecl]
  cases declareEntries limit 1 entries .empty <;> rfl

/-- The frame law of sessions. Each report is that of its step alone on an empty output, its units
standing behind those that all steps so far have added, and what a step adds is decided by the
step and whether it is rejected. In the end the text is that of all added units in order. The steps
that declare the entries of a root mapping one by one, up to the first rejection, come to the text
or the error of the document. -/
theorem runSteps_eq_alone (limit : Nat) (out : Output) (steps : List Step)
    (entries : List (String × Node)) :
    (runSteps limit out steps = steps.mapIdx fun i step =>
      ⟨(step.report limit .empty).rejection,
        out.append ((steps.take (i + 1)).flatMap (Step.added limit))⟩) ∧
    (∀ step : Step, step.Adds (step.report limit .empty).rejection (step.added limit)) ∧
    (outputAfter limit out steps).text = Text.join "\n"
      ((out.units.toList ++ steps.flatMap (Step.added limit)).map Declaration.text) ∧
    compileNode limit (.mapping entries) =
      (runUntilRejected limit .empty (entrySteps entries)).result := by
  refine ⟨runSteps_eq_mapIdx limit out steps, Step.adds_added limit, ?_,
    compileNode_mapping_eq_result limit entries⟩
  rw [outputAfter_eq, Output.text, Output.toList_units_append]

end YamlDefs
