import Std.Data.String.ToNat
import Qualigence.Foundation.Monitor
import Qualigence.Investigation.Persistence
import Qualigence.Investigation.Planner

/-! # Coordinated investigations

The coordinator asks the model for a plan, has the runner reproduce it and asks the model for an
analysis when the finding was reproduced. The results of the model go through the applier, the
attempts of the runner are appended, and an investigation that ends is confirmed or handed over.
-/

namespace Qualigence.Investigation

open Foundation Foundation.Program Intelligence InvestigationCase

structure ReproductionPlanningContext where
  caseId : String
  findingId : String
  planRevision : ℕ
  priorAttempts : List ReproductionAttempt

structure BugAnalysisContext where
  caseId : String
  findingId : String
  reproducedAttempts : List ReproductionAttempt

structure InvestigationCoordinatorConfig where
  tenantId : String
  modelProfileId : String
  dataPolicyId : String
  jobBudget : IntelligenceJobBudget
  maxPlanRevisions : ℕ

structure InvestigateInput where
  caseId : String
  findingId : String
  projectId : String
  budget : InvestigationBudget
  inputRefs : List String

structure InvestigationOutcome where
  caseId : String
  status : InvestigationStatus
  attempts : List ReproductionAttempt
  bugEpisode : Option BugEpisode
  handoff : Option HumanHandoff
  deriving DecidableEq

/-- What the coordinator throws, and what its ports throw. -/
inductive CoordinatorError where
  | port (text : String)
  | plan (error : ReproductionPlanError)
  | investigation (error : InvestigationError)
  | unsupportedJobType (jobType : IntelligenceJobType)

/-- The calls of the model agent, of the runner and of the id factory. -/
inductive CoordinatorOp where
  | newId
  | proposeReproductionPlan (job : IntelligenceJob) (context : ReproductionPlanningContext)
  | analyzeBug (job : IntelligenceJob) (context : BugAnalysisContext)
  | reproduce (plan : ReproductionPlan)

def CoordinatorOp.Reply : CoordinatorOp → Type
  | newId => String
  | proposeReproductionPlan _ _ | analyzeBug _ _ => IntelligenceResult
  | reproduce _ => ReproductionAttemptDraft

abbrev coordinatorSignature : Signature := ⟨CoordinatorOp, CoordinatorOp.Reply⟩

abbrev Coordinator (α : Type) := Program coordinatorSignature CoordinatorError α

namespace InvestigationStatus

def text : InvestigationStatus → String
  | candidate => "candidate"
  | investigating => "investigating"
  | reproducing => "reproducing"
  | confirmed => "confirmed"
  | refuted => "refuted"
  | flaky => "flaky"
  | needs_human => "needs_human"
  | resolved => "resolved"
  | regression_verified => "regression_verified"

end InvestigationStatus

/-! ## Executing results -/

/-- The case and the plans that were taken for its revisions. -/
structure PlannedCase where
  investigation : InvestigationCase
  planSnapshots : List (ℕ × ReproductionPlan)

namespace PlannedCase

variable (s : PlannedCase)

/-- `planSnapshots.get(revision)`, the latest one that was set. -/
def snapshot (revision : ℕ) : Option ReproductionPlan :=
  (s.planSnapshots.find? fun entry => decide (entry.1 = revision)).map (·.2)

end PlannedCase

/-- The versions of the one case. -/
def currentVersion (s : PlannedCase) (ref : IntelligenceAggregateRef) : Option ℕ :=
  if ref.type ≠ "investigation" ∨ ref.id ≠ s.investigation.caseId then none
  else some s.investigation.version

def effect (c : InvestigationCase) (status : InvestigationStatus) : AppliedEffect :=
  ⟨"investigation", c.caseId, c.version, status.text⟩

/-- `InvestigationConfirmationRejected` and `InvestigationAttemptUnknown` -/
def InvestigationError.rejectsConfirmation : InvestigationError → Bool
  | .confidenceBelowThreshold _ _ | .noReproducedAttempt | .attemptUnknown _ => true
  | _ => false

def executePlanning (result : IntelligenceResult) (s : PlannedCase) :
    Except CoordinatorError AppliedEffect × PlannedCase :=
  match s.investigation.apply
      (.startReproduction ⟨s.investigation.version, result.idempotencyKey⟩) with
  | (.error error, c) => (.error (.investigation error), { s with investigation := c })
  | (.ok transition, c) =>
    match reproductionPlanFromResult c.caseId c.planRevision result with
    | .error error => (.error (.plan error), { s with investigation := c })
    | .ok plan =>
      (.ok (effect c transition.toStatus), ⟨c, (plan.planRevision, plan) :: s.planSnapshots⟩)

def rejectedHandoff (result : IntelligenceResult) : HumanHandoffDraft where
  bestHypothesis := "Bug analysis did not meet the deterministic confirmation rule."
  lastDivergence := none
  keyEvidenceRefs := result.evidenceRefs
  suggestedActions := ["Assign a human reviewer to confirm or refute."]
  limitationCodes := ["confirmation_rejected"]

/-- A confirmation that is rejected hands the case over. -/
def executeAnalysis (result : IntelligenceResult) (s : PlannedCase) :
    Except CoordinatorError AppliedEffect × PlannedCase :=
  let c := s.investigation
  match bugEpisodeDraftFromResult result (c.caseId ++ ":episode:" ++ result.idempotencyKey) with
  | .error error => (.error (.plan error), s)
  | .ok draft =>
    match c.apply (.confirm ⟨c.version, result.idempotencyKey⟩ draft) with
    | (.ok transition, c) =>
      (.ok (effect c transition.toStatus), { s with investigation := c })
    | (.error error, c) =>
      if error.rejectsConfirmation then
        match c.apply (.escalateToHuman ⟨c.version, result.idempotencyKey ++ ":escalate"⟩
            (rejectedHandoff result)) with
        | (.ok transition, c) =>
          (.ok (effect c transition.toStatus), { s with investigation := c })
        | (.error error, c) => (.error (.investigation error), { s with investigation := c })
      else (.error (.investigation error), { s with investigation := c })

/-- The only code that changes the case from a result of the model. -/
def execute (job : IntelligenceJob) (result : IntelligenceResult) (s : PlannedCase) :
    Except CoordinatorError AppliedEffect × PlannedCase :=
  match job.jobType with
  | .reproductionPlanning => executePlanning result s
  | .bugAnalysis => executeAnalysis result s
  | jobType => (.error (.unsupportedJobType jobType), s)

def applierDeps : IntelligenceResultApplierDeps PlannedCase CoordinatorError where
  currentVersion := currentVersion
  execute := execute
  policy := none

/-! ## The coordinator -/

/-- What `investigate` works on. -/
structure CoordinatorState extends PlannedCase where
  ledger : AppliedResultLedger

namespace CoordinatorState

variable (s : CoordinatorState)

def applied (job : IntelligenceJob) (result : IntelligenceResult) :
    Coordinator (ApplyResult × CoordinatorState) :=
  match Intelligence.apply applierDeps job result s.toPlannedCase s.ledger with
  | (.error error, _) => .throw error
  | (.ok answer, planned, ledger) => .pure (answer, ⟨planned, ledger⟩)

def outcome : InvestigationOutcome where
  caseId := s.investigation.caseId
  status := s.investigation.status
  attempts := s.investigation.attempts
  bugEpisode := s.investigation.bugEpisode
  handoff := s.investigation.handoff

def escalationHandoff (reason : String) : HumanHandoffDraft where
  bestHypothesis := "Automated reproduction could not reach a conclusion."
  lastDivergence := none
  keyEvidenceRefs := []
  suggestedActions := ["Assign a human reviewer."]
  limitationCodes := [reason]

def escalate (reason : String) : Coordinator InvestigationOutcome :=
  let c := s.investigation
  if c.status = .investigating ∨ c.status = .reproducing then
    match c.apply (.escalateToHuman ⟨c.version, c.caseId ++ ":escalate:" ++ reason⟩
        (escalationHandoff reason)) with
    | (.error error, _) => .throw (.investigation error)
    | (.ok _, c) => .pure { s with investigation := c }.outcome
  else .pure s.outcome

end CoordinatorState

section Investigate

variable (config : InvestigationCoordinatorConfig) (input : InvestigateInput)

def jobInput (s : CoordinatorState) (jobId idempotencyKey : String) :
    BuildIntelligenceJobInput where
  jobId
  caseId := input.caseId
  projectId := input.projectId
  tenantId := config.tenantId
  baseAggregateVersion := s.investigation.version
  inputRefs := input.inputRefs
  modelProfileId := config.modelProfileId
  dataPolicyId := config.dataPolicyId
  budget := config.jobBudget
  idempotencyKey
  causationId := input.findingId

/-- Model-assisted planning, gated by the applier. -/
def planned (s : CoordinatorState) (revision : ℕ) :
    Coordinator (ApplyResult × CoordinatorState) := do
  let jobId : String ← perform (S := coordinatorSignature) .newId
  let job := buildReproductionPlanningJob
    (jobInput config input s jobId (input.caseId ++ ":plan:" ++ toString revision))
  let result : IntelligenceResult ← perform (S := coordinatorSignature)
    (.proposeReproductionPlan job
      ⟨input.caseId, input.findingId, revision + 1, s.investigation.attempts⟩)
  s.applied job result

/-- An attempt is a submission of the runner. -/
def reproduced (s : CoordinatorState) (plan : ReproductionPlan) :
    Coordinator (ReproductionAttemptDraft × CoordinatorState) := do
  let attempt : ReproductionAttemptDraft ← perform (S := coordinatorSignature) (.reproduce plan)
  let c := s.investigation
  match c.apply (.appendAttempt
      ⟨c.version, input.caseId ++ ":attempt:" ++ attempt.attemptId⟩ attempt) with
  | (.error error, _) => .throw (.investigation error)
  | (.ok _, c) => return (attempt, { s with investigation := c })

/-- The analysis of a finding that was reproduced. -/
def analyzed (s : CoordinatorState) (revision : ℕ) : Coordinator CoordinatorState := do
  let jobId : String ← perform (S := coordinatorSignature) .newId
  let job := buildBugAnalysisJob
    (jobInput config input s jobId (input.caseId ++ ":analysis:" ++ toString revision))
  let result : IntelligenceResult ← perform (S := coordinatorSignature) (.analyzeBug job
    ⟨input.caseId, input.findingId,
      s.investigation.attempts.filter fun attempt => attempt.outcome = .reproduced⟩)
  let answer ← s.applied job result
  return answer.2

/-- The attempt of a revision, and the analysis of one that reproduced the finding. Another revision
follows when neither ends the investigation. -/
def attempted (further : CoordinatorState → Coordinator InvestigationOutcome) (revision : ℕ)
    (s : CoordinatorState) : Coordinator InvestigationOutcome :=
  if s.investigation.status = .needs_human then .pure s.outcome
  else match s.snapshot s.investigation.planRevision with
  | none => s.escalate "plan_missing_snapshot"
  | some plan => do
    let (attempt, s) ← reproduced input s plan
    if s.investigation.status = .needs_human then .pure s.outcome
    else if attempt.outcome = .reproduced then do
      let s ← analyzed config input s revision
      if s.investigation.status = .confirmed ∨ s.investigation.status = .needs_human then
        .pure s.outcome
      else further s
    else further s

/-- The revisions of the plan that remain. -/
def revisions : ℕ → ℕ → CoordinatorState → Coordinator InvestigationOutcome
  | 0, _, s => s.escalate "plan_revisions_exhausted"
  | remaining + 1, revision, s => do
    let (answer, s) ← planned config input s revision
    match answer with
    | .rejected code => s.escalate ("plan_" ++ code.text)
    | _ => attempted config input (revisions remaining (revision + 1)) revision s

def investigate : Coordinator InvestigationOutcome :=
  let c := opened input.caseId input.findingId input.projectId input.budget
  match c.apply (.startInvestigation ⟨c.version, input.caseId ++ ":start"⟩) with
  | (.error error, _) => .throw (.investigation error)
  | (.ok _, c) => revisions config input config.maxPlanRevisions 0 ⟨⟨c, []⟩, []⟩

end Investigate

end Qualigence.Investigation
