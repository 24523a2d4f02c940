import YamlDefs.Declare

/-!
# Sessions

Single steps on one output under one limit. A step that is rejected does not end the session, and
the units it has added stay.

* `Step`: the steps; `Step.run`: what each does.
* `Report`: what a step came to; `runSteps`: the reports of steps one after the other.
-/

namespace YamlDefs

/-- A step of a session. -/
inductive Step where
  /-- Adds a line as it is. -/
  | line (text : String)
  /-- Adds the comment of a structure, whatever its name. -/
  | structureNamed (name : String)
  /-- Checks a name. -/
  | checkName (name : String)
  /-- Checks a depth. -/
  | checkDepth (depth : Nat)
  /-- Checks a value that stands at a depth. -/
  | checkValue (depth : Nat) (value : Node)
  /-- Declares a constant whose value stands at a depth. -/
  | constant (depth : Nat) (name : String) (value : Node)
  /-- Declares the evaluation of a constant. -/
  | evaluation (name : String)
  /-- Declares a named node that stands at a depth. -/
  | node (depth : Nat) (name : String) (value : Node)
deriving Repr

/-- What a step does under a limit. -/
def Step.run (limit : Nat) : Step → Writing Unit
  | line text => Writing.push (.line text)
  | structureNamed name => Writing.push (.structureNamed name)
  | checkName name => Writing.require (YamlDefs.checkName name)
  | checkDepth depth => Writing.require (YamlDefs.checkDepth limit depth)
  | checkValue depth value => Writing.require (YamlDefs.checkValue limit depth value)
  | constant depth name value => declareConstant limit depth name value
  | evaluation name => declareEvaluation name
  | node depth name value => declareNode limit depth name value

/-- What a step came to. -/
structure Report where
  /-- Why the step was rejected, if it was. -/
  rejection : Option Rejection
  /-- The output after the step. -/
  output : Output
deriving Repr

/-- Runs a step on an output. -/
def Step.report (limit : Nat) (step : Step) (out : Output) : Report :=
  match step.run limit out with
  | .ok () after => ⟨none, after⟩
  | .error cause after => ⟨some cause, after⟩

/-- Runs steps one after the other, each on the output of the one before. -/
def runSteps (limit : Nat) (out : Output) : List Step → List Report
  | [] => []
  | step :: rest =>
    let report := step.report limit out
    report :: runSteps limit report.output rest

end YamlDefs
