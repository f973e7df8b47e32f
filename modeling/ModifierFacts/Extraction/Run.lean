import ModifierFacts.Extraction.Unit

/-!
# Runs over many units

A run extracts every unit, whatever becomes of the others, and then looks at the results in input
order: a failed write ends the run with an error, and a rejected unit is reported as failed or ends
the run, as the policy says. Only a run that gets past all results flushes the sink.

* `Context.extractAll` is the first part. The work is cut in two in the middle of the list; when the
  sink crashes, the rest of that half is dropped, but the other half is still worked off.
* `RunSummary.settle` looks at the results, without any effect; `Context.conclude` is the second
  part, with the flush.
* `Context.run` puts them together.
-/

namespace ModifierFacts

/-! ## 1. Outcomes -/

/-- What to do about a unit that cannot be classified. -/
inductive FailurePolicy where
  /-- Drop the unit and go on. -/
  | abortUnit
  /-- End the run. -/
  | abortRun
  deriving DecidableEq, Repr

/-- A unit that was dropped, and why. -/
structure UnitFailure where
  unit : String
  error : String
  deriving DecidableEq, Repr

/-- The outcome of a run. -/
structure RunSummary where
  units : List UnitReport := []
  failures : List UnitFailure := []
  stats : RunStats := {}
  deriving DecidableEq, Repr

/-- Why a run fails. -/
inductive RunError where
  /-- A unit was rejected, and the policy ends the run. -/
  | extracting (unit : String) (error : Unsupported)
  /-- A fact of a unit was refused. -/
  | writing (unit : String) (error : FactError)
  /-- The final flush was refused. -/
  | flushing (error : FactError)
  deriving DecidableEq, Repr

/-- The texts of a run error, the outermost first. -/
def RunError.chain : RunError → List String
  | extracting unit error => ["extracting unit " ++ unit, error.message]
  | writing unit error => ("writing facts for unit " ++ unit) :: error.chain
  | flushing error => error.chain

/-- How a run ends early. -/
inductive RunStop where
  | failed (error : RunError)
  /-- The sink crashed. -/
  | crashed
  deriving DecidableEq, Repr

/-! ## 2. Results in input order -/

/-- The result of a unit. -/
abbrev UnitResult := Except ExtractError UnitReport

namespace RunSummary

/-- The summary with one more report in front. -/
def addReport (r : UnitReport) (s : RunSummary) : RunSummary := { s with units := r :: s.units }

/-- The summary with one more failure in front. -/
def addFailure (f : UnitFailure) (s : RunSummary) : RunSummary :=
  { s with failures := f :: s.failures }

/-- Looks at the results of the units, in input order. -/
def settle (policy : FailurePolicy) :
    List (CompilationUnit × UnitResult) → Except RunError RunSummary
  | [] => .ok {}
  | (_, .ok report) :: rest => (settle policy rest).map (addReport report)
  | (u, .error (.fact e)) :: _ => .error (.writing u.name e)
  | (u, .error (.modifier e)) :: rest =>
    match policy with
    | .abortRun => .error (.extracting u.name e)
    | .abortUnit => (settle policy rest).map (addFailure ⟨u.name, e.message⟩)

end RunSummary

/-! ## 3. The run -/

/-- The sink crashed. -/
inductive Crash where
  | crash
  deriving DecidableEq, Repr

/-- How the extraction of a unit ended, as a result. A crash is none. -/
def UnitResult.ofOutcome : Except Stop UnitReport → Except Crash UnitResult
  | .ok report => .ok (.ok report)
  | .error (.failed e) => .ok (.error e)
  | .error .crashed => .error .crash

namespace Context

variable {σ : Type} (sink : FactSink σ)

/-- Extracts one unit; its failure is a result like any other. -/
def attempt (u : CompilationUnit) : ExceptT Crash (StateM (Context σ)) UnitResult :=
  fun cx =>
    let (outcome, cx) := extractUnit sink u cx
    (UnitResult.ofOutcome outcome, cx)

/-- Extracts units one after the other, up to a crash. -/
def workOff (units : List CompilationUnit) : ExceptT Crash (StateM (Context σ)) (List UnitResult) :=
  units.mapM (attempt sink)

/-- Extracts all units. Both halves are worked off, even if the first one crashes. -/
def extractAll (units : List CompilationUnit) :
    StateM (Context σ) (Except Crash (List UnitResult)) := do
  let half := units.length / 2
  let first ← (workOff sink (units.take half)).run
  let second ← (workOff sink (units.drop half)).run
  return do return (← first) ++ (← second)

/-- The last flush of a run. -/
def finalFlush (summary : RunSummary) : StateM (Context σ) (Except RunStop RunSummary) := do
  let cx ← get
  let (reply, sinkState) := sink.reply cx.sinkState .flush
  let cx := { cx with sinkState }
  set cx
  match reply with
  | .accepted =>
    return .ok { summary with stats := { cx.stats with unitsAborted := summary.failures.length } }
  | .refused e => return .error (.failed (.flushing e))
  | .crashed => return .error .crashed

/-- Ends a run with these results: looks at them in input order and flushes if none is in the way. -/
def conclude (policy : FailurePolicy) (units : List CompilationUnit) (results : List UnitResult) :
    StateM (Context σ) (Except RunStop RunSummary) :=
  match RunSummary.settle policy (units.zip results) with
  | .error e => return .error (.failed e)
  | .ok summary => finalFlush sink summary

/-- Runs over all units. -/
def run (policy : FailurePolicy) (units : List CompilationUnit) :
    StateM (Context σ) (Except RunStop RunSummary) := do
  match ← extractAll sink units with
  | .error .crash => return .error .crashed
  | .ok results => conclude sink policy units results

end Context

end ModifierFacts
