import Qualigence.Foundation.Calls
import Qualigence.Runner.PolicyGate
import Qualigence.Runner.Runtime

/-! # The calls of an execution

The execution runtime as a program over its dependencies: what it calls, in which order and with
what. A dependency may answer each call in any way, also in view of all calls before it.
-/

namespace Qualigence.Kernel

open Foundation Protocol Runner

/-- The payload of the last event of a trace. -/
inductive TerminalPayload where
  | passed
  | finding (findingId : JsValue)
  | blocked (errorCode : Option String)
  | error (errorCode : String)
  deriving DecidableEq

inductive StagePayload where
  | observation (evidenceRefs : List String)
  | decision (action : ProposedAction)
  | actionResolved (action : ResolvedAction)
  | policyAuthorized (descriptor : Option ExecutionPermitDescriptor)
  | policyDenied (reason : String)
  | actionExecuted (outcome : ActionOutcome)
  | verification (result : VerificationResult)
  | finding (finding : FindingEnvelope)
  | runCompleted (payload : TerminalPayload)
  deriving DecidableEq

/-- What the executor did with its permit and its action. `dispatched` is what the permit reports
when the runtime goes on, and `late` whether the permit is used afterwards, by a call that was given
up at the deadline or when the run was aborted. -/
structure ExecuteAnswer where
  dispatched : Bool
  late : Bool
  result : Except Thrown ActionOutcome

/-- The calls of the runtime, by the ordinal of the step they are made for. The budget checks its
clock and its tokens; an operation that the budget or the signal keeps from being called is answered
with the error they throw. -/
inductive RuntimeOp where
  | beginBudget
  | checkClock (ordinal : ℕ)
  | capture (ordinal : ℕ)
  | decide (ordinal : ℕ) (step : Option ExecutionPlanStep)
  | resolve (ordinal : ℕ) (decision : ProposedAction)
  | authorize (ordinal : ℕ) (action : ResolvedAction)
  | maximumOutputTokens (ordinal : ℕ)
  | execute (ordinal : ℕ) (action : ResolvedAction)
  | verify (ordinal : ℕ) (claimIds : List String)
  | append (ordinal : ℕ) (stepIndex : Option ℕ) (payload : StagePayload)

def RuntimeOp.Reply : RuntimeOp → Type
  | beginBudget | checkClock _ | maximumOutputTokens _ | append .. => Unit
  | capture _ => List String
  | decide .. => ProposedAction
  | resolve .. => ResolvedAction
  | authorize .. => PolicyDecision
  | execute .. => ExecuteAnswer
  | verify .. => VerificationResult

abbrev runtimeSignature : Signature := ⟨RuntimeOp, RuntimeOp.Reply⟩

abbrev Runtime (α : Type) := Program runtimeSignature Thrown α

def call (op : RuntimeOp) : Runtime op.Reply := Program.perform (S := runtimeSignature) op

def raise {α : Type} (e : Thrown) : Runtime α := .throw e

section Job

variable (job : AcceptedExecutionJob)

/-- The step budget of a job. -/
def maximumSteps : ℕ := (job.plan.map fun plan => plan.budget.maximumStepsPerJob).getD 1

/-- The index under which the events of a step are recorded. -/
def traceIndex (stepIndex : ℕ) : Option ℕ := job.plan.map fun _ => stepIndex

/-- `budget.beforeStep`; as many steps were consumed as ran before. -/
def beforeStep (ordinal stepIndex : ℕ) : Runtime Unit := do
  call (.checkClock ordinal)
  if Job.maxSafeInteger < stepIndex ∨ maximumSteps job ≤ ordinal then
    raise (.executionBudget .stepBudgetExceeded)
  else pure ()

def recordStage (ordinal stepIndex : ℕ) (payload : StagePayload) : Runtime Unit :=
  call (.append ordinal (traceIndex job stepIndex) payload)

/-- `capture`; an invalid observation is an error of the observer. -/
def capture (ordinal stepIndex : ℕ) : Runtime (List String) := do
  let observation : List String ← call (.capture ordinal)
  recordStage job ordinal stepIndex (.observation observation)
  return observation

/-- The decision of a step has to be its action. -/
def matchStep (decision : ProposedAction) : Option ExecutionPlanStep → Runtime Unit
  | none => pure ()
  | some step => match assertDecisionMatchesStep decision step with
    | .ok _ => pure ()
    | .error e => raise e

/-- What `executeStep` returns: a completion ends the run. -/
def completionOfOutcome (dispatched : Bool) : ActionOutcome → Option ExecutionCompletion
  | .ok => none
  | .failed errorCode =>
    if dispatched ∨ errorCode = some "ActionOutcomeUnknown" then
      some (errorCompletion job "ActionOutcomeUnknown")
    else some (blockedCompletion job (errorCode.getD "ActionFailed"))

/-- What follows the call of the executor. -/
def afterExecution (ordinal stepIndex : ℕ) (answer : ExecuteAnswer) :
    Runtime (Option ExecutionCompletion) :=
  match answer.result with
  | .error e => raise (if answer.dispatched then .actionOutcomeUnknown else e)
  | .ok outcome => do
    recordStage job ordinal stepIndex (.actionExecuted outcome)
    return completionOfOutcome job answer.dispatched outcome

def executeStep (step : Option ExecutionPlanStep) (ordinal stepIndex : ℕ) :
    Runtime (Option ExecutionCompletion) := do
  let decision : ProposedAction ← call (.decide ordinal step)
  matchStep decision step
  recordStage job ordinal stepIndex (.decision decision)
  let action : ResolvedAction ← call (.resolve ordinal decision)
  recordStage job ordinal stepIndex (.actionResolved action)
  let policyDecision : PolicyDecision ← call (.authorize ordinal action)
  match policyDecision with
  | .denied reason =>
    recordStage job ordinal stepIndex (.policyDenied reason)
    return some (blockedCompletion job "PolicyDenied")
  | .allowed descriptor =>
    recordStage job ordinal stepIndex (.policyAuthorized descriptor)
    call (.maximumOutputTokens ordinal)
    let answer : ExecuteAnswer ← call (.execute ordinal action)
    afterExecution job ordinal stepIndex answer

def verify (ordinal stepIndex : ℕ) (claimIds before after : List String) :
    Runtime (Option ExecutionCompletion) := do
  let verification : VerificationResult ← call (.verify ordinal claimIds)
  recordStage job ordinal stepIndex (.verification verification)
  match verification with
  | .passed => return none
  | .failed summary severity claims =>
    let finding := findingFromVerification job.runId summary severity claims before after
    recordStage job ordinal stepIndex (.finding finding)
    return some ⟨job.jobId, job.runId, .finding finding.toValue⟩

/-- What the steps so far leave behind: the first observation, the index of the last step, and
whether a step verified explicitly. -/
structure Progress where
  first : Option (List String)
  lastStepIndex : ℕ
  hasExplicitVerification : Bool

/-- One step of a plan: a completion, or the progress after it. -/
def runStep (progress : Progress) (ordinal : ℕ) (step : ExecutionPlanStep) :
    Runtime (ExecutionCompletion ⊕ Progress) := do
  let stepIndex := step.stepIndex.getD ordinal
  beforeStep job ordinal stepIndex
  let observation ← capture job ordinal stepIndex
  let before := progress.first.getD observation
  match step with
  | .verify _ claimIds =>
    match ← verify job ordinal stepIndex claimIds.toList before observation with
    | some completion => return .inl completion
    | none => return .inr ⟨some before, stepIndex, true⟩
  | step =>
    match ← executeStep job (some step) ordinal stepIndex with
    | some completion => return .inl completion
    | none => return .inr ⟨some before, stepIndex, progress.hasExplicitVerification⟩

/-- After the last step: the expected claims are verified when no step verified. -/
def finishSteps (plan : ExecutionJobPlanSnapshot) (progress : Progress) (ordinal : ℕ) :
    Runtime ExecutionCompletion := do
  if progress.hasExplicitVerification then return passedCompletion job
  let after ← capture job ordinal progress.lastStepIndex
  let completion ← verify job ordinal progress.lastStepIndex plan.expectedClaimIds.toList
    (progress.first.getD after) after
  return completion.getD (passedCompletion job)

/-- The steps that are left, and how the run ends, with the index of the step that was current. -/
def runSteps (plan : ExecutionJobPlanSnapshot) : Progress → ℕ → List ExecutionPlanStep →
    Runtime (ℕ × Except Thrown ExecutionCompletion)
  | progress, ordinal, [] => do
    return (progress.lastStepIndex, ← (finishSteps job plan progress ordinal).attempt)
  | progress, ordinal, step :: steps => do
    match ← (runStep job progress ordinal step).attempt with
    | .error e => return (step.stepIndex.getD ordinal, .error e)
    | .ok (.inl completion) => return (step.stepIndex.getD ordinal, .ok completion)
    | .ok (.inr progress) => runSteps plan progress (ordinal + 1) steps

def runObjectiveOnly : Runtime ExecutionCompletion := do
  beforeStep job 0 0
  let before ← capture job 0 0
  match ← executeStep job none 0 0 with
  | some completion => return completion
  | none =>
    let after ← capture job 0 0
    let completion ← verify job 0 0 [] before after
    return completion.getD (passedCompletion job)

def runUntilCompletion : Runtime (ℕ × Except Thrown ExecutionCompletion) :=
  match job.plan with
  | none => do return (0, ← (runObjectiveOnly job).attempt)
  | some plan => runSteps job plan ⟨none, 0, false⟩ 0 plan.steps.toList

def terminalPayload : CompletionStatus → TerminalPayload
  | .passed => .passed
  | .finding (.obj fields) => .finding (JsValue.field "findingId" fields)
  | .finding _ => .finding .undefined
  | .blocked errorCode => .blocked errorCode
  | .error errorCode => .error errorCode

/-- `recordTerminal`, which raises a `TerminalTracePersistenceError`. -/
def recordTerminal (stepIndex : ℕ) (completion : ExecutionCompletion) :
    Runtime ExecutionCompletion :=
  (do
    recordStage job (maximumSteps job) stepIndex (.runCompleted (terminalPayload completion.status))
    return completion).tryCatch fun _ => raise .other

/-- `ExecutionRuntime.run`. -/
def run : Runtime ExecutionCompletion := do
  call .beginBudget
  let (stepIndex, result) ← runUntilCompletion job
  match result with
  | .ok completion => recordTerminal job stepIndex completion
  | .error e => match completionFromError job e with
    | some completion => recordTerminal job stepIndex completion
    | none => raise e

end Job

end Qualigence.Kernel
