import Mathlib.Algebra.Group.Nat.Defs
import Qualigence.Core.Application
import Qualigence.Mission.Starts

/-! # The mission dispatch loop

A cycle of the loop reads the pending dispatches and takes them one after another: it looks
for a lease of the run, asks for the connection of the Runner, offers the job and waits for
the lease, and marks the dispatch accepted or blocked. Everything it awaits is an operation,
between which other programs of the server take their turns.
-/

namespace Qualigence.Dispatch

open Foundation Protocol
open Lease (StoreError)
open Core (CoreOp CoreError Service CoreOptions RunnerAuthorizationScope AppCall)
open Mission (MissionDispatch MissionDispatchAcceptanceReceipt ReceiptStatus ScheduleError
  validateApprovedExecutionPolicy)

/-! ## Errors -/

/-- The codes that a connection raises. -/
inductive RunnerProtocolErrorCode where
  | capabilityMismatch
  | runnerScopeViolation
  | sessionClosed
  deriving DecidableEq

/-- What an awaited operation can be rejected with. The recursion of a refused block is
followed to a depth, after which nothing more is known. -/
inductive DispatchError where
  | runnerProtocol (code : RunnerProtocolErrorCode) (message : String)
      (details : Option (List (String × JsValue)))
  | core (error : CoreError)
  | mission (error : ScheduleError)
  | transport
  | clockNotIso
  | typeError
  | notFollowed

/-- The codes that the loop looks at. -/
inductive ErrorCode where
  | capabilityMismatch
  | leaseActive
  | policyMissing
  | runIdentityMismatch
  | runLost
  | runCompleted
  | runOwnershipViolation
  | missionDispatchVersionConflict
  | missionDispatchReceiptConflict
  deriving DecidableEq

def ErrorCode.text : ErrorCode → String
  | capabilityMismatch => "CapabilityMismatch"
  | leaseActive => "LeaseActive"
  | policyMissing => "PolicyMissing"
  | runIdentityMismatch => "RunIdentityMismatch"
  | runLost => "RunLost"
  | runCompleted => "RunCompleted"
  | runOwnershipViolation => "RunOwnershipViolation"
  | missionDispatchVersionConflict => "MissionDispatchVersionConflict"
  | missionDispatchReceiptConflict => "MissionDispatchReceiptConflict"

/-- The code of an error, if it is one that the loop looks at. -/
def errorCode : DispatchError → Option ErrorCode
  | .runnerProtocol .capabilityMismatch _ _ => some .capabilityMismatch
  | .core (.application .capabilityMismatch _ _) => some .capabilityMismatch
  | .core (.application .leaseActive _ _) => some .leaseActive
  | .core (.application .policyMissing _ _) => some .policyMissing
  | .core (.application .runIdentityMismatch _ _) => some .runIdentityMismatch
  | .core (.application .runLost _ _) => some .runLost
  | .core (.application .runCompleted _ _) => some .runCompleted
  | .core (.application .runOwnershipViolation _ _) => some .runOwnershipViolation
  | .core (.store .policyMissing) => some .policyMissing
  | .mission (.scheduling .missionDispatchVersionConflict _) =>
    some .missionDispatchVersionConflict
  | .mission (.scheduling .missionDispatchReceiptConflict _) =>
    some .missionDispatchReceiptConflict
  | _ => none

def errorDetails : DispatchError → Option (List (String × JsValue))
  | .runnerProtocol _ _ details => details
  | .core (.application _ _ details) => some details
  | _ => none

/-- The name of the error of a job that does not parse. -/
def errorName : JobError → String
  | .policySnapshot => "ExecutionPolicySnapshotError"
  | .planPolicy => "ExecutionPlanPolicyError"
  | .appTarget _ => "AppTargetError"

/-! ## Results -/

inductive MissionDispatchBlockedReason where
  | runnerBindingMismatch
  | tenantScopeMismatch
  | projectScopeMismatch
  | capabilityMismatch
  | policyInvalid
  | leaseIdentityMismatch
  | leaseLost
  | dispatchConflict
  deriving DecidableEq

inductive MissionDispatchPendingReason where
  | runnerOffline
  | runnerUnavailable
  | acceptancePersistenceFailed
  | blockPersistenceFailed
  | cancelled
  | deadlineExceeded
  | backingOff
  deriving DecidableEq

inductive MissionDispatchResult where
  | accepted (dispatch : MissionDispatch) (receipt : MissionDispatchAcceptanceReceipt)
      (lease : Option ExecutionJobLease)
  | pending (attemptId runnerId : String) (reason : MissionDispatchPendingReason)
      (retryAfterMs : Int)
  | blocked (dispatch : MissionDispatch) (attemptId runnerId : String)
      (reason : MissionDispatchBlockedReason) (details : Option (List (String × JsValue)))

structure MissionDispatchCycleResult where
  totalPending : ℕ
  attempted : ℕ
  accepted : ℕ
  pending : ℕ
  blocked : ℕ
  results : List MissionDispatchResult

namespace MissionDispatchResult

def isAccepted : MissionDispatchResult → Bool
  | accepted .. => true
  | _ => false

def isPending : MissionDispatchResult → Bool
  | pending .. => true
  | _ => false

def isBlocked : MissionDispatchResult → Bool
  | blocked .. => true
  | _ => false

def isAttempted : MissionDispatchResult → Bool
  | pending _ _ reason _ => reason ≠ .backingOff
  | _ => true

end MissionDispatchResult

/-! ## Operations -/

structure AuthenticatedRunner where
  runnerId : String
  scope : RunnerAuthorizationScope
  capabilities : List String

/-- What the directory returns: a connection, by its number, with its runner and session. -/
structure RunnerConnection where
  connection : ℕ
  sessionId : String
  runner : AuthenticatedRunner

structure BackoffState where
  failures : ℕ
  notBeforeMs : Int

inductive DispatchOp where
  | core (op : CoreOp)
  | pendingDispatches (limit : ℕ)
  | markDispatchAccepted (attemptId : String) (receipt : MissionDispatchAcceptanceReceipt)
      (expectedVersion : ℕ)
  | markDispatchBlocked (attemptId : String) (expectedVersion : ℕ)
  | connectionFor (runnerId : String)
  | assertCurrent (connection : ℕ) (message : String)
  | registerOffer (connection : ℕ) (offerId : String)
  | settled (deferred : ℕ)
  | admitFrame (connection : ℕ)
  | resolveOffer (connection : ℕ) (offerId : String) (lease : ExecutionJobLease)
  | aborted
  | nowMs
  | backoff (loop : ℕ) (attemptId : String)
  | setBackoff (loop : ℕ) (attemptId : String) (state : BackoffState)
  | deleteBackoff (loop : ℕ) (attemptId : String)

/-- The replies. An operation of Core replies with its own outcome. -/
@[reducible] def DispatchOp.Reply : DispatchOp → Type
  | core op => Except CoreError op.Reply
  | pendingDispatches _ => List MissionDispatch
  | markDispatchAccepted .. | markDispatchBlocked .. => MissionDispatch
  | connectionFor _ => Option RunnerConnection
  | registerOffer .. => ℕ
  | settled _ => ExecutionJobLease
  | admitFrame _ => Option String
  | aborted => Bool
  | nowMs => Int
  | backoff .. => Option BackoffState
  | assertCurrent .. | resolveOffer .. | setBackoff .. | deleteBackoff .. => Unit

abbrev dispatchSignature : Signature := ⟨DispatchOp, DispatchOp.Reply⟩

/-- A program of the server around the dispatches. -/
abbrev Dispatching (α : Type) := Program dispatchSignature DispatchError α

def perform (op : DispatchOp) : Dispatching op.Reply := Program.perform (S := dispatchSignature) op

/-- A program of Core as a part of a larger one. -/
def ofService {α : Type} : Service α → Dispatching α
  | .pure a => .pure a
  | .throw e => .throw (.core e)
  | .call op next => .call (.core op) fun
    | .ok r => ofService (next r)
    | .error e => .throw e

/-! ## A connection -/

namespace ServerRunnerConnection

variable (o : CoreOptions) (c : RunnerConnection)

/-- The checks before the payload of an offer is handed on. -/
def authorizePayloadAdmission (job : AcceptedExecutionJob) (requirements : List String) :
    Dispatching Unit :=
  let missing := requirements.filter fun r => !c.runner.capabilities.contains r
  let capable : Dispatching Unit :=
    if missing = [] then .pure ()
    else .throw (.runnerProtocol .capabilityMismatch "runner is missing required capabilities"
      (some [("missingCapabilities", AppTarget.strings missing)]))
  match c.runner.scope with
  | .tenant tenantId projectIds =>
    if projectIds.contains job.projectId then capable
    else .throw (.runnerProtocol .runnerScopeViolation
      ("runner " ++ c.runner.runnerId ++ " is not authorized for project " ++ job.projectId)
      (some [("runnerId", .str c.runner.runnerId), ("tenantId", .str tenantId),
        ("projectId", .str job.projectId)]))
  | .local => capable

def offer (job : AcceptedExecutionJob) (requirements : List String) :
    Dispatching ExecutionJobLease := do
  perform (.assertCurrent c.connection "runner connection is closed")
  authorizePayloadAdmission c job requirements
  let offer ← ofService
    (Core.CoreRunnerProtocolApplication.createOffer o c.sessionId job requirements)
  perform (.assertCurrent c.connection "runner connection closed while creating offer")
  let deferred ← perform (.registerOffer c.connection offer.offerId)
  perform (.settled deferred)

/-- `handleFrame` of a frame that accepts an offer; an admitted frame has a session. -/
def acceptOffer (connection : ℕ) (offerId : String) : Dispatching Unit := do
  match ← perform (.admitFrame connection) with
  | none => return
  | some sessionId =>
    let lease ← ofService (Core.CoreRunnerProtocolApplication.accept o sessionId offerId)
    perform (.resolveOffer connection offerId lease)

end ServerRunnerConnection

/-! ## The loop -/

structure MissionDispatchLoopOptions where
  tenantId : String
  deadlineAtMs : Option Int
  batchSize : ℕ
  initialBackoffMs : ℕ
  maximumBackoffMs : ℕ

def pendingResult (d : MissionDispatch) (reason : MissionDispatchPendingReason)
    (retryAfterMs : Int) : MissionDispatchResult :=
  .pending d.attemptId d.runnerId reason retryAfterMs

namespace MissionDispatchLoop

variable (o : CoreOptions) (options : MissionDispatchLoopOptions) (loop : ℕ)

def recordBackoff (attemptId : String) : Dispatching ℕ := do
  let previous ← perform (.backoff loop attemptId)
  let failures := (previous.map (·.failures)).getD 0 + 1
  let retryAfterMs := min (options.initialBackoffMs * 2 ^ (failures - 1)) options.maximumBackoffMs
  let nowMs ← perform .nowMs
  perform (.setBackoff loop attemptId ⟨failures, nowMs + retryAfterMs⟩)
  return retryAfterMs

def defer (d : MissionDispatch) (reason : MissionDispatchPendingReason) :
    Dispatching MissionDispatchResult := do
  let retryAfterMs ← recordBackoff options loop d.attemptId
  return pendingResult d reason retryAfterMs

/-- The receipt is derived from the row, so that a replay presents the same one. -/
def receiptOf (d : MissionDispatch) (status : ReceiptStatus) : MissionDispatchAcceptanceReceipt :=
  ⟨status, d.runnerJobId, d.runId, d.createdAt⟩

def accept (d : MissionDispatch) (status : ReceiptStatus) (lease : Option ExecutionJobLease) :
    Dispatching MissionDispatchResult := do
  match ← (perform (.markDispatchAccepted d.attemptId (receiptOf d status) d.version)).attempt with
  | .error _ => defer options loop d .acceptancePersistenceFailed
  | .ok accepted =>
    perform (.deleteBackoff loop d.attemptId)
    return .accepted accepted (receiptOf d status) lease

/-- `acceptExistingLease`, given how a dispatch is blocked. -/
def acceptExistingLease (block : MissionDispatchBlockedReason → Dispatching MissionDispatchResult)
    (d : MissionDispatch) (job : AcceptedExecutionJob) :
    Dispatching (Option MissionDispatchResult) := do
  match ← ofService (Core.Store.lease d.runId) with
  | none => return none
  | some lease =>
    if lease.job.jobId ≠ d.runnerJobId ∨ lease.job.runId ≠ d.runId ∨
        lease.owner.runnerId ≠ d.runnerId then
      return some (← block .leaseIdentityMismatch)
    else match canonicalPayloadHash o.platform lease.job.toValue,
        canonicalPayloadHash o.platform job.toValue with
      | some stored, some own =>
        if stored ≠ own then return some (← block .leaseIdentityMismatch)
        else if lease.lostAt.isSome then return some (← block .leaseLost)
        else return some (← accept options loop d .alreadyActive none)
      | _, _ => .throw .typeError

/-- A refused block looks for a lease, which can end in another block. The recursion has no
bound of its own; `depth` is how far it is followed. -/
def block : ℕ → MissionDispatch → MissionDispatchBlockedReason →
    Option (List (String × JsValue)) → Dispatching MissionDispatchResult
  | 0, _, _, _ => .throw .notFollowed
  | depth + 1, d, reason, details => do
    match ← (perform (.markDispatchBlocked d.attemptId d.version)).attempt with
    | .ok blocked =>
      perform (.deleteBackoff loop d.attemptId)
      return .blocked blocked d.attemptId d.runnerId reason details
    | .error e =>
      let conflict := errorCode e = some .missionDispatchVersionConflict ∨
        errorCode e = some .missionDispatchReceiptConflict
      match if conflict then (parseExecutionJob o.platform d.job.toValue).toOption else none with
      | none => defer options loop d .blockPersistenceFailed
      | some job =>
        let existing := acceptExistingLease o options loop (fun r => block depth d r none) d job
        match ← existing.attempt with
        | .ok (some accepted) => return accepted
        | _ => defer options loop d .blockPersistenceFailed

def preOfferStopped (d : MissionDispatch) : Dispatching (Option MissionDispatchResult) := do
  if ← perform .aborted then return some (pendingResult d .cancelled 0)
  else match options.deadlineAtMs with
    | none => return none
    | some deadlineAtMs =>
      if deadlineAtMs ≤ (← perform .nowMs) then
        return some (← defer options loop d .deadlineExceeded)
      else return none

def authorizeConnection (depth : ℕ) (d : MissionDispatch) (job : AcceptedExecutionJob)
    (runner : AuthenticatedRunner) : Dispatching (Option MissionDispatchResult) := do
  if runner.runnerId ≠ d.runnerId then
    return some (← block o options loop depth d .runnerBindingMismatch
      (some [("authenticatedRunnerId", .str runner.runnerId)]))
  else match runner.scope with
    | .local =>
      return some (← block o options loop depth d .tenantScopeMismatch
        (some [("scope", .obj [("kind", .str "local")])]))
    | .tenant tenantId projectIds =>
      if tenantId ≠ options.tenantId then
        return some (← block o options loop depth d .tenantScopeMismatch
          (some [("scope", .obj [("kind", .str "tenant"), ("tenantId", .str tenantId),
            ("projectIds", AppTarget.strings projectIds)])]))
      else if ¬ projectIds.contains job.projectId then
        return some (← block o options loop depth d .projectScopeMismatch
          (some [("projectId", .str job.projectId)]))
      else
        let missing := d.requiredCapabilities.filter fun c => !runner.capabilities.contains c
        if missing ≠ [] then
          return some (← block o options loop depth d .capabilityMismatch
            (some [("missingCapabilities", AppTarget.strings missing)]))
        else return none

/-- What follows an offer that was rejected. -/
def offerRejected (depth : ℕ) (d : MissionDispatch) (job : AcceptedExecutionJob)
    (error : DispatchError) : Dispatching MissionDispatchResult := do
  let existing := acceptExistingLease o options loop
    (fun r => block o options loop depth d r none) d job
  match ← existing.attempt with
  | .ok (some reconciled) => return reconciled
  | _ => match errorCode error with
    | some .capabilityMismatch =>
      block o options loop depth d .capabilityMismatch (errorDetails error)
    | some .policyMissing =>
      block o options loop depth d .policyInvalid
        (some [("code", .str ErrorCode.policyMissing.text)])
    | some .leaseActive =>
      block o options loop depth d .dispatchConflict
        (some [("code", .str ErrorCode.leaseActive.text)])
    | some .runIdentityMismatch =>
      block o options loop depth d .dispatchConflict
        (some [("code", .str ErrorCode.runIdentityMismatch.text)])
    | some .runLost =>
      block o options loop depth d .dispatchConflict (some [("code", .str ErrorCode.runLost.text)])
    | some .runCompleted =>
      block o options loop depth d .dispatchConflict
        (some [("code", .str ErrorCode.runCompleted.text)])
    | some .runOwnershipViolation =>
      block o options loop depth d .dispatchConflict
        (some [("code", .str ErrorCode.runOwnershipViolation.text)])
    | _ => defer options loop d .runnerUnavailable

/-- The connection of the Runner is asked for, checked and offered the job. -/
def offerJob (depth : ℕ) (d : MissionDispatch) (job : AcceptedExecutionJob) :
    Dispatching MissionDispatchResult := do
  match ← perform (.connectionFor d.runnerId) with
  | none => defer options loop d .runnerOffline
  | some connection =>
    match ← authorizeConnection o options loop depth d job connection.runner with
    | some refused => return refused
    | none => match ← preOfferStopped options loop d with
      | some stopped => return stopped
      | none =>
        match ← (ServerRunnerConnection.offer o connection job d.requiredCapabilities).attempt with
        | .ok lease =>
          if lease.jobId ≠ d.runnerJobId ∨ lease.runId ≠ d.runId then
            block o options loop depth d .leaseIdentityMismatch
              (some [("leaseJobId", .str lease.jobId), ("leaseRunId", .str lease.runId)])
          else accept options loop d .accepted (some lease)
        | .error error => offerRejected o options loop depth d job error

/-- A dispatch whose job and policy are in order. -/
def dispatchJob (depth : ℕ) (d : MissionDispatch) (job : AcceptedExecutionJob) (nowMs : Int) :
    Dispatching MissionDispatchResult := do
  match ← acceptExistingLease o options loop (fun r => block o options loop depth d r none) d
      job with
  | some existing => return existing
  | none =>
    if (parseInstant job.policy.expiresAt).any (· ≤ nowMs) then
      block o options loop depth d .policyInvalid
        (some [("error", .str "Execution policy is expired.")])
    else offerJob o options loop depth d job

def dispatch (depth : ℕ) (d : MissionDispatch) : Dispatching MissionDispatchResult := do
  let deferred ← perform (.backoff loop d.attemptId)
  let nowMs ← perform .nowMs
  match deferred.filter fun b => nowMs < b.notBeforeMs with
  | some b => return pendingResult d .backingOff (b.notBeforeMs - nowMs)
  | none => match parseExecutionJob o.platform d.job.toValue with
    | .error e =>
      block o options loop depth d .policyInvalid (some [("error", .str (errorName e))])
    | .ok job =>
      if job.jobId ≠ d.runnerJobId ∨ job.runId ≠ d.runId then
        block o options loop depth d .leaseIdentityMismatch none
      else
        let wallClock := (job.plan.map (·.budget.maximumWallClockMs)).getD 0
        match validateApprovedExecutionPolicy o.platform job.policy wallClock with
        | .error message =>
          block o options loop depth d .policyInvalid (some [("error", .str message)])
        | .ok () => dispatchJob o options loop depth d job nowMs

def dispatchAll (depth : ℕ) : List MissionDispatch → Dispatching (List MissionDispatchResult)
  | [] => return []
  | d :: rest => do
    let result ← match ← preOfferStopped options loop d with
      | some stopped => (return stopped : Dispatching MissionDispatchResult)
      | none => dispatch o options loop depth d
    return result :: (← dispatchAll depth rest)

/-- A cycle of the loop. -/
def runOnce (depth : ℕ) : Dispatching MissionDispatchCycleResult := do
  let dispatches ← perform (.pendingDispatches options.batchSize)
  let results ← dispatchAll o options loop depth dispatches
  return { totalPending := dispatches.length
           attempted := (results.filter (·.isAttempted)).length
           accepted := (results.filter (·.isAccepted)).length
           pending := (results.filter (·.isPending)).length
           blocked := (results.filter (·.isBlocked)).length
           results }

end MissionDispatchLoop

end Qualigence.Dispatch
