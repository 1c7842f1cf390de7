import Qualigence.Protocol.Messages

/-! # The execution runtime

One run of a job at the Runner. The observer, the decision provider, the policy gate, the
executor, the verifier, the budget and the trace recorder are dependencies that answer or
throw; the runtime turns what they say into one completion, or into none when it throws.
-/

namespace Qualigence.Runner

open Foundation Protocol

inductive ExecutionTargetErrorStatus where
  | blocked
  | error
  deriving DecidableEq

inductive ExecutionBudgetErrorCode where
  | executionBudgetInvalid
  | executionBudgetAlreadyActive
  | executionBudgetNotActive
  | stepBudgetExceeded
  | wallClockBudgetExceeded
  | modelBudgetExceeded
  | modelUsageUnavailable
  deriving DecidableEq

def ExecutionBudgetErrorCode.text : ExecutionBudgetErrorCode → String
  | executionBudgetInvalid => "ExecutionBudgetInvalid"
  | executionBudgetAlreadyActive => "ExecutionBudgetAlreadyActive"
  | executionBudgetNotActive => "ExecutionBudgetNotActive"
  | stepBudgetExceeded => "StepBudgetExceeded"
  | wallClockBudgetExceeded => "WallClockBudgetExceeded"
  | modelBudgetExceeded => "ModelBudgetExceeded"
  | modelUsageUnavailable => "ModelUsageUnavailable"

/-- What a dependency throws; `other` is every error that the runtime does not know. -/
inductive Thrown where
  | executionTarget (errorCode : String) (completionStatus : ExecutionTargetErrorStatus)
  | executionBlocked (errorCode : String)
  | executionBudget (code : ExecutionBudgetErrorCode)
  | actionOutcomeUnknown
  | other
  deriving DecidableEq

/-- An action as the decision provider proposes it, without the node it is for. -/
inductive ProposedAction where
  | navigate (path : String)
  | click
  | input (valueRef : String)
  | select (valueRef : String)
  | scroll (direction : ScrollDirection) (amount : ScrollAmount)
  | window
  deriving DecidableEq

/-- An outcome is ok, or failed with a code that may be missing. -/
inductive ActionOutcome where
  | ok
  | failed (errorCode : Option String)
  deriving DecidableEq

structure VerificationEvidenceValue where
  graphId : String
  nodeId : String
  deriving DecidableEq

structure VerificationClaim where
  expected : VerificationEvidenceValue
  observed : VerificationEvidenceValue
  deriving DecidableEq

inductive VerificationResult where
  | passed
  | failed (summary : String) (severitySuggestion : String)
      (claims : NonEmptyList VerificationClaim)
  deriving DecidableEq

inductive TraceStage where
  | observation
  | decision
  | actionResolved
  | policyAuthorized
  | policyDenied
  | actionExecuted
  | verification
  | finding
  deriving DecidableEq

/-- The answers of the dependencies during one run, by the ordinal of the step they are
asked for. A capture gives the evidence references of a valid observation, and an execution
says whether the permit was used before it answered. -/
structure ExecutionRuntimeDependencies where
  beginBudget : Except Thrown Unit
  beforeStep : ℕ → Except Thrown Unit
  capture : ℕ → Except Thrown (List String)
  decide : ℕ → Except Thrown ProposedAction
  resolve : ℕ → Except Thrown Unit
  authorize : ℕ → Except Thrown Bool
  maximumOutputTokens : ℕ → Except Thrown Unit
  execute : ℕ → Bool × Except Thrown ActionOutcome
  verify : ℕ → Except Thrown VerificationResult
  record : ℕ → TraceStage → Except Thrown Unit
  recordTerminal : ExecutionCompletion → Except Thrown Unit

/-! ## Findings -/

structure FindingEnvelope where
  findingId : String
  runId : String
  title : String
  summary : String
  severity : String
  evidenceRefs : List String
  deriving DecidableEq

def FindingEnvelope.toValue (f : FindingEnvelope) : JsValue :=
  .obj [("findingId", .str f.findingId), ("runId", .str f.runId), ("title", .str f.title),
    ("summary", .str f.summary), ("severity", .str f.severity),
    ("evidenceRefs", AppTarget.strings f.evidenceRefs)]

def claimRefs (claim : VerificationClaim) : List String :=
  [claim.expected.graphId ++ ":" ++ claim.expected.nodeId,
    claim.observed.graphId ++ ":" ++ claim.observed.nodeId]

def findingFromVerification (runId summary severitySuggestion : String)
    (claims : NonEmptyList VerificationClaim) (before after : List String) :
    FindingEnvelope where
  findingId := runId ++ ":verification"
  runId := runId
  title := "M1 verification failed"
  summary := summary
  severity := severitySuggestion
  evidenceRefs := (claims.toList.flatMap claimRefs ++ (before ++ after)).eraseDups

/-! ## Completions -/

section Run

variable (job : AcceptedExecutionJob)

def passedCompletion : ExecutionCompletion := ⟨job.jobId, job.runId, .passed⟩

def blockedCompletion (errorCode : String) : ExecutionCompletion :=
  ⟨job.jobId, job.runId, .blocked (some errorCode)⟩

def errorCompletion (errorCode : String) : ExecutionCompletion :=
  ⟨job.jobId, job.runId, .error errorCode⟩

/-- The completion of a code that was thrown without a status. -/
def completionFromCode (errorCode : String) : ExecutionCompletion :=
  if errorCode = "ModelUsageUnavailable" ∨ errorCode = "ActionOutcomeUnknown" then
    errorCompletion job errorCode
  else blockedCompletion job errorCode

def completionFromError : Thrown → Option ExecutionCompletion
  | .executionTarget errorCode .blocked => some (blockedCompletion job errorCode)
  | .executionTarget errorCode .error => some (errorCompletion job errorCode)
  | .executionBlocked errorCode => some (completionFromCode job errorCode)
  | .executionBudget code => some (completionFromCode job code.text)
  | .actionOutcomeUnknown => some (completionFromCode job "ActionOutcomeUnknown")
  | .other => none

/-! ## The run -/

/-- A decision has to be the action of the step, with its path, value and extent. -/
def assertDecisionMatchesStep : ProposedAction → ExecutionPlanStep → Except Thrown Unit
  | .navigate path, .navigate _ path' => if path = path' then .ok () else mismatch
  | .click, .click .. => .ok ()
  | .input valueRef, .input _ _ valueRef' => if valueRef = valueRef' then .ok () else mismatch
  | .select valueRef, .select _ _ valueRef' => if valueRef = valueRef' then .ok () else mismatch
  | .scroll direction amount, .scroll _ _ direction' amount' =>
    if direction = direction' ∧ amount = amount' then .ok () else mismatch
  | _, _ => mismatch
where
  mismatch : Except Thrown Unit := .error (.executionBlocked "PlanStepMismatch")

variable (deps : ExecutionRuntimeDependencies)

def capture (ordinal : ℕ) : Except Thrown (List String) := do
  let observation ← deps.capture ordinal
  deps.record ordinal .observation
  return observation

/-- Execute the step of an ordinal, if the job has a plan; a completion ends the run. -/
def executeStep (step : Option ExecutionPlanStep) (ordinal : ℕ) :
    Except Thrown (Option ExecutionCompletion) := do
  let decision ← deps.decide ordinal
  (step.map (assertDecisionMatchesStep decision)).getD (.ok ())
  deps.record ordinal .decision
  deps.resolve ordinal
  deps.record ordinal .actionResolved
  if ← deps.authorize ordinal then
    deps.record ordinal .policyAuthorized
    deps.maximumOutputTokens ordinal
    match deps.execute ordinal with
    | (true, .error _) => .error .actionOutcomeUnknown
    | (false, .error e) => .error e
    | (dispatchStarted, .ok outcome) =>
      deps.record ordinal .actionExecuted
      match outcome with
      | .ok => return none
      | .failed errorCode =>
        if dispatchStarted ∨ errorCode = some "ActionOutcomeUnknown" then
          return some (errorCompletion job "ActionOutcomeUnknown")
        else return some (blockedCompletion job (errorCode.getD "ActionFailed"))
  else
    deps.record ordinal .policyDenied
    return some (blockedCompletion job "PolicyDenied")

def verify (ordinal : ℕ) (before after : List String) :
    Except Thrown (Option ExecutionCompletion) := do
  let verification ← deps.verify ordinal
  deps.record ordinal .verification
  match verification with
  | .passed => return none
  | .failed summary severity claims =>
    let finding := findingFromVerification job.runId summary severity claims before after
    deps.record ordinal .finding
    return some ⟨job.jobId, job.runId, .finding finding.toValue⟩

/-- The steps that are left, from an ordinal on. The first observation is kept, and whether
a step verified explicitly. -/
def runSteps : ℕ → Option (List String) → Bool → List ExecutionPlanStep →
    Except Thrown ExecutionCompletion
  | ordinal, first, verified, [] => do
    if verified then return passedCompletion job
    let after ← capture deps ordinal
    match ← verify job deps ordinal (first.getD after) after with
    | some completion => return completion
    | none => return passedCompletion job
  | ordinal, first, verified, step :: steps => do
    deps.beforeStep ordinal
    let observation ← capture deps ordinal
    let before := first.getD observation
    match step with
    | .verify _ _ =>
      match ← verify job deps ordinal before observation with
      | some completion => return completion
      | none => runSteps (ordinal + 1) (some before) true steps
    | step =>
      match ← executeStep job deps (some step) ordinal with
      | some completion => return completion
      | none => runSteps (ordinal + 1) (some before) verified steps

def runObjectiveOnly : Except Thrown ExecutionCompletion := do
  deps.beforeStep 0
  let before ← capture deps 0
  match ← executeStep job deps none 0 with
  | some completion => return completion
  | none =>
    let after ← capture deps 1
    return (← verify job deps 1 before after).getD (passedCompletion job)

def runUntilCompletion : Except Thrown ExecutionCompletion :=
  match job.plan with
  | none => runObjectiveOnly job deps
  | some plan => runSteps job deps 0 none false plan.steps.toList

/-- The completion of a run whose budget has begun. -/
def completionOf : Option ExecutionCompletion :=
  match runUntilCompletion job deps with
  | .ok completion => some completion
  | .error e => completionFromError job e

/-- The completion of a run; none when the run throws. -/
def run : Option ExecutionCompletion := do
  deps.beginBudget.toOption
  let completion ← completionOf job deps
  (deps.recordTerminal completion).toOption
  return completion

end Run

/-! ## What a run can produce -/

/-- The completions of a job: passed, with a finding of a verification, or with a code. -/
inductive Produced (job : AcceptedExecutionJob) : ExecutionCompletion → Prop
  | passed : Produced job (passedCompletion job)
  | finding (f : FindingEnvelope) :
    Produced job ⟨job.jobId, job.runId, .finding f.toValue⟩
  | blocked (errorCode : String) : Produced job (blockedCompletion job errorCode)
  | error (errorCode : String) : Produced job (errorCompletion job errorCode)

section Produced

variable {job : AcceptedExecutionJob} {deps : ExecutionRuntimeDependencies}
  {c : ExecutionCompletion}

theorem produced_of_code (errorCode : String) :
    Produced job (completionFromCode job errorCode) := by
  unfold completionFromCode
  split
  · exact .error errorCode
  · exact .blocked errorCode

theorem produced_of_error {e : Thrown} (h : completionFromError job e = some c) :
    Produced job c := by
  unfold completionFromError at h
  split at h
  · cases h
    exact .blocked _
  · cases h
    exact .error _
  · cases h
    exact produced_of_code _
  · cases h
    exact produced_of_code _
  · cases h
    exact produced_of_code _
  · cases h

theorem produced_of_executeStep {step : Option ExecutionPlanStep} {ordinal : ℕ}
    (h : executeStep job deps step ordinal = .ok (some c)) : Produced job c := by
  unfold executeStep at h
  obtain ⟨decision, _, h⟩ := bind_eq_ok.mp h
  obtain ⟨_, _, h⟩ := bind_eq_ok.mp h
  obtain ⟨_, _, h⟩ := bind_eq_ok.mp h
  obtain ⟨_, _, h⟩ := bind_eq_ok.mp h
  obtain ⟨_, _, h⟩ := bind_eq_ok.mp h
  obtain ⟨allowed, _, h⟩ := bind_eq_ok.mp h
  split at h
  · obtain ⟨_, _, h⟩ := bind_eq_ok.mp h
    obtain ⟨_, _, h⟩ := bind_eq_ok.mp h
    split at h
    · cases h
    · cases h
    · obtain ⟨_, _, h⟩ := bind_eq_ok.mp h
      split at h
      · cases h
      · split at h
        · cases h
          exact .error _
        · cases h
          exact .blocked _
  · obtain ⟨_, _, h⟩ := bind_eq_ok.mp h
    cases h
    exact .blocked _

theorem produced_of_verify {ordinal : ℕ} {before after : List String}
    (h : verify job deps ordinal before after = .ok (some c)) : Produced job c := by
  unfold verify at h
  obtain ⟨verification, _, h⟩ := bind_eq_ok.mp h
  obtain ⟨_, _, h⟩ := bind_eq_ok.mp h
  split at h
  · cases h
  · obtain ⟨_, _, h⟩ := bind_eq_ok.mp h
    cases h
    exact .finding _

/-- By induction on the steps that are left: a completion ends the run or a later step does. -/
theorem produced_of_runSteps {steps : List ExecutionPlanStep} {ordinal : ℕ}
    {first : Option (List String)} {verified : Bool}
    (h : runSteps job deps ordinal first verified steps = .ok c) : Produced job c := by
  induction steps generalizing ordinal first verified with
  | nil =>
    unfold runSteps at h
    split at h
    · cases h
      exact .passed
    · obtain ⟨after, _, h⟩ := bind_eq_ok.mp h
      obtain ⟨o, hv, h⟩ := bind_eq_ok.mp h
      split at h
      · cases h
        exact produced_of_verify hv
      · cases h
        exact .passed
  | cons step steps ih =>
    unfold runSteps at h
    obtain ⟨_, _, h⟩ := bind_eq_ok.mp h
    obtain ⟨observation, _, h⟩ := bind_eq_ok.mp h
    dsimp only at h
    split at h
    · obtain ⟨o, hv, h⟩ := bind_eq_ok.mp h
      split at h
      · cases h
        exact produced_of_verify hv
      · exact ih h
    · obtain ⟨o, he, h⟩ := bind_eq_ok.mp h
      split at h
      · cases h
        exact produced_of_executeStep he
      · exact ih h

theorem produced_of_runObjectiveOnly (h : runObjectiveOnly job deps = .ok c) :
    Produced job c := by
  unfold runObjectiveOnly at h
  obtain ⟨_, _, h⟩ := bind_eq_ok.mp h
  obtain ⟨before, _, h⟩ := bind_eq_ok.mp h
  obtain ⟨o, he, h⟩ := bind_eq_ok.mp h
  split at h
  · cases h
    exact produced_of_executeStep he
  · obtain ⟨after, _, h⟩ := bind_eq_ok.mp h
    obtain ⟨o', hv, h⟩ := bind_eq_ok.mp h
    cases h
    cases o' with
    | none => exact .passed
    | some c => exact produced_of_verify hv

theorem produced_of_runUntilCompletion (h : runUntilCompletion job deps = .ok c) :
    Produced job c := by
  unfold runUntilCompletion at h
  split at h
  · exact produced_of_runObjectiveOnly h
  · exact produced_of_runSteps h

/-- Whatever the dependencies answer, a run ends with one of the completions of its job. -/
theorem produced_of_run (h : run job deps = some c) : Produced job c := by
  unfold run at h
  obtain ⟨_, _, h⟩ := Option.bind_eq_some_iff.mp h
  obtain ⟨completion, hc, h⟩ := Option.bind_eq_some_iff.mp h
  obtain ⟨_, _, h⟩ := Option.bind_eq_some_iff.mp h
  cases h
  unfold completionOf at hc
  split at hc
  · next hr =>
    cases hc
    exact produced_of_runUntilCompletion hr
  · exact produced_of_error hc

end Produced

end Qualigence.Runner
