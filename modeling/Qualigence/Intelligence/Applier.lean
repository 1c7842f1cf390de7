import Mathlib.Algebra.Order.Field.Rat
import Qualigence.Protocol.Value

/-! # Results of the model

A job asks the model for proposals. A result is applied to an aggregate through one gate only: its
envelope has to match the job, its key must not have been applied, the aggregate must have the
version of the job, and its usage and its evidence must be within those of the job.
-/

namespace Qualigence.Intelligence

open Protocol

inductive IntelligenceJobType where
  | prdPlanning
  | skillInduction
  | skillEvaluation
  | reproductionPlanning
  | bugAnalysis
  deriving DecidableEq

structure IntelligenceAggregateRef where
  type : String
  id : String
  deriving DecidableEq

structure IntelligenceJobBudget where
  maximumTokens : ℚ
  maximumCostMicros : ℚ
  timeoutMs : ℚ
  deriving DecidableEq

inductive IntelligencePriority where
  | low
  | normal
  | high
  deriving DecidableEq

structure IntelligenceJob where
  jobId : String
  jobType : IntelligenceJobType
  schemaVersion : String
  tenantId : String
  projectId : String
  aggregateRef : IntelligenceAggregateRef
  baseAggregateVersion : ℕ
  inputRefs : List String
  modelProfileId : String
  dataPolicyId : String
  budget : IntelligenceJobBudget
  priority : IntelligencePriority
  idempotencyKey : String
  causationId : String
  expectedResultSchema : String
  deriving DecidableEq

/-- A number that is not finite is `none`. -/
structure IntelligenceResultUsage where
  inputTokens : Option ℚ
  outputTokens : Option ℚ
  costMicros : Option ℚ
  deriving DecidableEq

inductive TerminalStatus where
  | succeeded
  | blocked
  | failed
  deriving DecidableEq

structure IntelligenceResult where
  jobId : String
  resultSchemaVersion : String
  proposals : List (List (String × JsValue))
  evidenceRefs : List String
  confidence : ℚ
  usage : IntelligenceResultUsage
  terminalStatus : TerminalStatus
  idempotencyKey : String

inductive IntelligenceRejectionCode where
  | schemaInvalid
  | terminalNotSucceeded
  | budgetExceeded
  | policyViolation
  | evidenceMismatch
  deriving DecidableEq

def IntelligenceRejectionCode.text : IntelligenceRejectionCode → String
  | schemaInvalid => "SchemaInvalid"
  | terminalNotSucceeded => "TerminalNotSucceeded"
  | budgetExceeded => "BudgetExceeded"
  | policyViolation => "PolicyViolation"
  | evidenceMismatch => "EvidenceMismatch"

structure AppliedEffect where
  aggregateType : String
  aggregateId : String
  newVersion : ℕ
  summary : String
  deriving DecidableEq

inductive ApplyResult where
  | applied (effect : AppliedEffect)
  | duplicate (effect : AppliedEffect)
  | recompute
  | rejected (code : IntelligenceRejectionCode)
  deriving DecidableEq

def resultSchema : String := "intelligence-result/v1"

/-- Finite numbers that are not negative. -/
def usageValid (usage : IntelligenceResultUsage) : Bool :=
  [usage.inputTokens, usage.outputTokens, usage.costMicros].all fun number =>
    match number with
    | none => false
    | some number => decide (0 ≤ number)

/-- Every failed check is a `SchemaInvalid`. -/
def validateEnvelope (job : IntelligenceJob) (result : IntelligenceResult) : Bool :=
  if result.resultSchemaVersion ≠ resultSchema then false
  else if result.jobId ≠ job.jobId then false
  else if result.idempotencyKey ≠ job.idempotencyKey then false
  else if job.expectedResultSchema ≠ result.resultSchemaVersion then false
  else if result.confidence < 0 ∨ 1 < result.confidence then false
  else if !usageValid result.usage then false
  else if result.terminalStatus = .succeeded ∧ result.proposals = [] then false
  else true

/-- The tokens and the costs of a result are beyond those of the job. -/
def budgetExceeded (job : IntelligenceJob) (usage : IntelligenceResultUsage) : Bool :=
  decide (job.budget.maximumTokens <
      usage.inputTokens.getD 0 + usage.outputTokens.getD 0) ||
    decide (job.budget.maximumCostMicros < usage.costMicros.getD 0)

/-- What the applier depends on besides its ledger, over a state `σ` that executions change. -/
structure IntelligenceResultApplierDeps (σ ε : Type) where
  currentVersion : σ → IntelligenceAggregateRef → Option ℕ
  execute : IntelligenceJob → IntelligenceResult → σ → Except ε AppliedEffect × σ
  policy : Option (IntelligenceJob → IntelligenceResult → Bool)

/-- The effects that were recorded, the latest one first. -/
abbrev AppliedResultLedger := List (String × AppliedEffect)

def AppliedResultLedger.find (ledger : AppliedResultLedger) (key : String) :
    Option AppliedEffect :=
  (List.find? (fun entry => decide (entry.1 = key)) ledger).map (·.2)

variable {σ ε : Type}

/-- A result that throws when it is executed is not recorded. -/
def apply (deps : IntelligenceResultApplierDeps σ ε) (job : IntelligenceJob)
    (result : IntelligenceResult) (state : σ) (ledger : AppliedResultLedger) :
    Except ε ApplyResult × σ × AppliedResultLedger :=
  if !validateEnvelope job result then (.ok (.rejected .schemaInvalid), state, ledger)
  else match ledger.find result.idempotencyKey with
  | some effect => (.ok (.duplicate effect), state, ledger)
  | none =>
    if deps.currentVersion state job.aggregateRef ≠ some job.baseAggregateVersion then
      (.ok .recompute, state, ledger)
    else if result.terminalStatus ≠ .succeeded then
      (.ok (.rejected .terminalNotSucceeded), state, ledger)
    else if budgetExceeded job result.usage then
      (.ok (.rejected .budgetExceeded), state, ledger)
    else if result.evidenceRefs.any fun ref => decide (ref ∉ job.inputRefs) then
      (.ok (.rejected .evidenceMismatch), state, ledger)
    else if deps.policy.any fun allows => !allows job result then
      (.ok (.rejected .policyViolation), state, ledger)
    else match deps.execute job result state with
    | (.error error, state) => (.error error, state, ledger)
    | (.ok effect, state) =>
      (.ok (.applied effect), state, (result.idempotencyKey, effect) :: ledger)

/-! ## What the gate lets through -/

/-- The checks that stand before an execution. -/
structure Passes (job : IntelligenceJob) (result : IntelligenceResult) : Prop where
  jobId : result.jobId = job.jobId
  key : result.idempotencyKey = job.idempotencyKey
  confidence : 0 ≤ result.confidence ∧ result.confidence ≤ 1
  succeeded : result.terminalStatus = .succeeded
  proposals : result.proposals ≠ []
  usage : usageValid result.usage
  budget : budgetExceeded job result.usage = false
  evidence : ∀ ref ∈ result.evidenceRefs, ref ∈ job.inputRefs

/-- A result is answered without an execution, which changes nothing, or it passes the gate and is
executed. -/
inductive Applies (deps : IntelligenceResultApplierDeps σ ε) (job : IntelligenceJob)
    (result : IntelligenceResult) (state : σ) (ledger : AppliedResultLedger) :
    Except ε ApplyResult × σ × AppliedResultLedger → Prop
  | rejected (code : IntelligenceRejectionCode) :
      Applies deps job result state ledger (.ok (.rejected code), state, ledger)
  | duplicate {effect : AppliedEffect} : result.idempotencyKey = job.idempotencyKey →
      ledger.find result.idempotencyKey = some effect →
      Applies deps job result state ledger (.ok (.duplicate effect), state, ledger)
  | recompute : deps.currentVersion state job.aggregateRef ≠ some job.baseAggregateVersion →
      Applies deps job result state ledger (.ok .recompute, state, ledger)
  | throws {error : ε} {state' : σ} : Passes job result →
      deps.execute job result state = (.error error, state') →
      Applies deps job result state ledger (.error error, state', ledger)
  | applied {effect : AppliedEffect} {state' : σ} : Passes job result →
      deps.execute job result state = (.ok effect, state') →
      Applies deps job result state ledger
        (.ok (.applied effect), state', (job.idempotencyKey, effect) :: ledger)

theorem passes_of_validateEnvelope {job : IntelligenceJob} {result : IntelligenceResult}
    (h : validateEnvelope job result) (hsucceeded : result.terminalStatus = .succeeded)
    (hbudget : budgetExceeded job result.usage = false)
    (hevidence : ∀ ref ∈ result.evidenceRefs, ref ∈ job.inputRefs) : Passes job result := by
  unfold validateEnvelope at h
  split at h
  · cases h
  split at h
  · cases h
  next hjobId =>
  split at h
  · cases h
  next hkey =>
  split at h
  · cases h
  split at h
  · cases h
  next hconfidence =>
  split at h
  · cases h
  next husage =>
  split at h
  · cases h
  next hproposals =>
  rw [not_or, not_lt, not_lt] at hconfidence
  exact ⟨not_not.mp hjobId, not_not.mp hkey, hconfidence, hsucceeded,
    fun hempty => hproposals ⟨hsucceeded, hempty⟩, by simpa using husage, hbudget, hevidence⟩

theorem key_of_validateEnvelope {job : IntelligenceJob} {result : IntelligenceResult}
    (h : validateEnvelope job result) : result.idempotencyKey = job.idempotencyKey := by
  unfold validateEnvelope at h
  split at h
  · cases h
  split at h
  · cases h
  split at h
  · cases h
  next hkey => exact not_not.mp hkey

theorem applies_apply (deps : IntelligenceResultApplierDeps σ ε) (job : IntelligenceJob)
    (result : IntelligenceResult) (state : σ) (ledger : AppliedResultLedger) :
    Applies deps job result state ledger (apply deps job result state ledger) := by
  unfold apply
  split
  · exact .rejected _
  next henvelope =>
  rw [Bool.not_eq_true', Bool.not_eq_false] at henvelope
  split
  next effect hfind => exact .duplicate (key_of_validateEnvelope henvelope) hfind
  split
  next hversion => exact .recompute hversion
  split
  · exact .rejected _
  next hsucceeded =>
  split
  · exact .rejected _
  next hbudget =>
  split
  · exact .rejected _
  next hevidence =>
  split
  · exact .rejected _
  have hpasses : Passes job result := by
    refine passes_of_validateEnvelope henvelope (not_not.mp hsucceeded) (by simpa using hbudget) ?_
    intro ref href
    by_contra hstray
    exact hevidence (List.any_eq_true.mpr ⟨ref, href, decide_eq_true hstray⟩)
  split
  next error state' hexecute => exact .throws hpasses hexecute
  next effect state' hexecute =>
    rw [hpasses.key]
    exact .applied hpasses hexecute

end Qualigence.Intelligence
