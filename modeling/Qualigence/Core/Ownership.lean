import Qualigence.Core.World

/-! # Run ownership and execution jobs

`RunOwnershipService` is the state machine of leases on top of the store, and
`ExecutionJobService` keeps the offers that lead to them. Both read the store, decide and
write in separate steps.
-/

namespace Qualigence.Core

open Foundation Protocol Lease

structure RunOwnershipOptions where
  platform : Platform
  leaseDurationMs : ℕ

structure RecoveredRun where
  job : AcceptedExecutionJob
  recoveryOfRunId : String

inductive RunCompletionDisposition where
  | completed
  | duplicate
  deriving DecidableEq

/-- `error instanceof RunnerControlStoreError` becomes `PolicyMissing`; other errors pass. -/
def orPolicyMissing {α : Type} (body : Service α) : Service α :=
  body.tryCatch fun
    | .store .policyMissing | .store .completionIdentityMismatch =>
      fail .policyMissing "persisted execution Job policy is unavailable" []
    | e => Program.throw e

namespace RunOwnershipService

variable (o : RunOwnershipOptions)

def hashToken (token : String) : String := o.platform.sha256 token

def grant (job : AcceptedExecutionJob) (owner : PersistedLeaseOwner)
    (recoveryOfRunId : Option String) : Service ExecutionJobLease := do
  let leaseToken ← generate
  let expiresAt := toISOString ((← now) + o.leaseDurationMs)
  let granted ← Store.grantLease
    { job, owner, leaseEpoch := 1, leaseTokenHash := hashToken o leaseToken, expiresAt,
      lostAt := none, completedAt := none, recoveryOfRunId }
  if granted then
    return { jobId := job.jobId, runId := job.runId, leaseToken, leaseEpoch := 1, expiresAt }
  else
    fail .runOwnershipViolation
      ("run " ++ job.runId ++ " already has an owner and is never re-granted") (forRun job.runId)

def requireMatchingLease (lease : ExecutionJobLease) : Service PersistedExecutionLease := do
  match ← orPolicyMissing (Store.lease lease.runId) with
  | none =>
    fail .leaseLost ("run " ++ lease.runId ++ " has no active lease") (forRun lease.runId)
  | some record =>
    if record.lostAt.isSome ∨ record.leaseEpoch ≠ lease.leaseEpoch ∨
        record.leaseTokenHash ≠ hashToken o lease.leaseToken then
      fail .leaseLost ("lease for run " ++ lease.runId ++ " is no longer valid")
        (forRun lease.runId)
    else if record.completedAt.isSome then return record
    else if record.expiresAt ≤ (← nowIso) then
      let _ ← Store.markLeaseLost lease.runId (← nowIso)
      fail .leaseLost ("lease for run " ++ lease.runId ++ " has expired") (forRun lease.runId)
    else return record

def requireLiveLease (lease : ExecutionJobLease) : Service PersistedExecutionLease := do
  let record ← requireMatchingLease o lease
  if record.completedAt.isSome then
    fail .leaseLost ("lease for run " ++ lease.runId ++ " is completed") (forRun lease.runId)
  else return record

def renew (lease : ExecutionJobLease) : Service ExecutionJobLease := do
  let newExpiresAt := toISOString ((← now) + o.leaseDurationMs)
  let (record, renewed) ← orPolicyMissing do
    let record ← requireLiveLease o lease
    let renewed ← Store.renewLease
      { runId := lease.runId, jobId := lease.jobId, owner := record.owner,
        leaseEpoch := lease.leaseEpoch, leaseTokenHash := hashToken o lease.leaseToken,
        checkedAt := ← nowIso, newExpiresAt }
    return (record, renewed)
  if renewed then
    return { jobId := lease.jobId, runId := lease.runId, leaseToken := lease.leaseToken,
             leaseEpoch := record.leaseEpoch, expiresAt := newExpiresAt }
  else
    fail .leaseLost ("lease for run " ++ lease.runId ++ " is no longer valid")
      (forRun lease.runId)

def completeAgainst (record : PersistedExecutionLease) (completion : ExecutionCompletion)
    (checkedAt : Timestamp) : Service RunCompletionDisposition := do
  let runId := record.job.runId
  let outcome ← Store.completeLease
    { runId, jobId := record.job.jobId, owner := record.owner, leaseEpoch := record.leaseEpoch,
      leaseTokenHash := record.leaseTokenHash, checkedAt, completion }
  match outcome with
  | .completionConflict stored =>
    perform (.emit
      { runId, leaseTokenHash := record.leaseTokenHash,
        presentedCompletionHash := canonicalPayloadHash o.platform completion.toValue,
        storedCompletionHash := canonicalPayloadHash o.platform stored.toValue,
        observedAt := checkedAt })
    fail .runOwnershipViolation
      ("completion for run " ++ runId ++ " conflicts with the stored terminal result")
      (forRun runId)
  | .rejected =>
    fail .leaseLost ("lease for run " ++ runId ++ " no longer authorizes completion")
      (forRun runId)
  | .completed => return .completed
  | .duplicate => return .duplicate

def complete (lease : ExecutionJobLease) (completion : ExecutionCompletion) :
    Service RunCompletionDisposition := do
  let record ← requireMatchingLease o lease
  completeAgainst o record completion (← nowIso)

/-- Complete a run with the stored lease as the authority. -/
def completeStored (runId : String) (completion : ExecutionCompletion) :
    Service RunCompletionDisposition := do
  let stored ← Store.lease runId
  let now ← nowIso
  match stored with
  | none => fail .leaseLost ("run " ++ runId ++ " has no active lease") (forRun runId)
  | some record =>
    if record.completedAt.isSome then completeAgainst o record completion now
    else if record.lostAt.isSome then
      fail .leaseLost ("run " ++ runId ++ " has no active lease") (forRun runId)
    else if record.expiresAt ≤ now then
      if ← Store.markLeaseLost runId now then
        fail .leaseLost ("lease for run " ++ runId ++ " has expired") (forRun runId)
      else
        match ← Store.lease runId with
        | some latest =>
          if latest.completedAt.isSome then completeAgainst o latest completion now
          else fail .leaseLost ("lease for run " ++ runId ++ " has expired") (forRun runId)
        | none => fail .leaseLost ("lease for run " ++ runId ++ " has expired") (forRun runId)
    else completeAgainst o record completion now

def mayStartAction (lease : ExecutionJobLease) : Service Bool := do
  match ← orPolicyMissing (Store.lease lease.runId) with
  | none => return false
  | some record =>
    if record.lostAt.isSome ∨ record.completedAt.isSome then return false
    else if record.leaseEpoch ≠ lease.leaseEpoch then return false
    else if record.expiresAt ≤ (← nowIso) then return false
    else return record.leaseTokenHash = hashToken o lease.leaseToken

def markLost (runId : String) : Service Unit := do
  let _ ← Store.markLeaseLost runId (← nowIso)

/-- The job of a lost run under new names. -/
def recoveryJob (original : AcceptedExecutionJob) (jobId runId : String) :
    AcceptedExecutionJob :=
  { original with jobId, runId }

/-- Recover a run whose lease expired or was revoked. -/
def createRecoveryRun (lostRunId : String) : Service RecoveredRun := do
  match ← Store.lease lostRunId with
  | none => fail .unknownRun ("run " ++ lostRunId ++ " is not known") (forRun lostRunId)
  | some record =>
    if record.completedAt.isSome then
      fail .runCompleted ("run " ++ lostRunId ++ " already completed and is never recovered")
        (forRun lostRunId)
    else
      let now ← nowIso
      if record.lostAt.isNone ∧ now < record.expiresAt then
        fail .leaseActive
          ("run " ++ lostRunId ++
            " still has a live lease; recover only after expiry or an explicit revoke")
          (forRun lostRunId)
      else
        -- the reply, which says whether the lease was marked, is not looked at
        let _ ← if record.lostAt.isNone then Store.markLeaseLost lostRunId now else pure false
        let runId ← generate
        let jobId ← generate
        return { job := recoveryJob record.job jobId runId, recoveryOfRunId := lostRunId }

/-- Only the Runner that owns the run named by the batch may upload it. -/
def authorizeTraceUpload (identity : AuthenticatedRunnerContext) (batch : ExecutionEventBatch) :
    Service Unit := do
  match ← Store.lease batch.runId with
  | none =>
    fail .runOwnershipViolation ("run " ++ batch.runId ++ " has no owner") (forRun batch.runId)
  | some record =>
    if record.owner.runnerId = identity.runnerId then return
    else
      fail .runOwnershipViolation
        ("runner " ++ identity.runnerId ++ " may not upload Trace for run " ++ batch.runId ++
          " owned by " ++ record.owner.runnerId)
        (forRun batch.runId ++ [("ownerRunnerId", .str record.owner.runnerId)])

def ownerOf (runId : String) : Service (Option PersistedLeaseOwner) := do
  let record ← orPolicyMissing (Store.lease runId)
  return record.map (·.owner)

end RunOwnershipService

structure OfferRequest where
  owner : PersistedLeaseOwner
  capabilities : RunnerCapabilities
  job : AcceptedExecutionJob
  requiredCapabilities : List String
  recoveryOfRunId : Option String

/-- Web targets also need the observation capabilities. -/
def requiredCapabilitiesFor (job : AcceptedExecutionJob) (requested : List String) :
    List String :=
  match job.target with
  | .web _ => setOf (requested ++ webObservationV1CapabilityTokens)
  | .desktop _ => requested

namespace ExecutionJobService

variable (o : RunOwnershipOptions)

/-- Refuse a run that already has a lease, and recover it when the lease expired. -/
def resolveRecovery (request : OfferRequest) : Service OfferRequest := do
  let runId := request.job.runId
  match ← Store.lease runId with
  | none => return request
  | some stored =>
    if stored.lostAt.isSome then
      fail .runLost ("run " ++ runId ++ " is lost and is never re-offered")
        (forRun runId ++
          JsValue.optional "recoveryOfRunId" (stored.recoveryOfRunId.map .str))
    else if stored.completedAt.isSome then
      fail .runCompleted ("run " ++ runId ++ " already completed and is never re-offered")
        (forRun runId)
    else if (← nowIso) < stored.expiresAt then
      fail .leaseActive
        ("run " ++ runId ++ " already has a live lease; its owner must renew or complete it")
        (forRun runId)
    else
      let recovered ← RunOwnershipService.createRecoveryRun runId
      return { request with
        job := recovered.job
        recoveryOfRunId := some recovered.recoveryOfRunId }

def offer (request : OfferRequest) : Service ExecutionJobOffer := do
  match parseExecutionJob o.platform request.job.toValue with
  | .error e =>
    if e.isPolicySnapshot then
      fail .policyMissing "execution Job is malformed or policy-incompatible" []
    else Program.throw (.job e)
  | .ok job =>
    let requiredCapabilities := requiredCapabilitiesFor job request.requiredCapabilities
    let missing := negotiateCapabilities request.capabilities requiredCapabilities
    if missing ≠ [] then
      fail .capabilityMismatch "runner is missing required capabilities"
        [("missingCapabilities", AppTarget.strings missing)]
    else
      let pendingOffer ← resolveRecovery { request with job, requiredCapabilities }
      let offerId ← generate
      let offer : ExecutionJobOffer :=
        { offerId, job := pendingOffer.job, requiredCapabilities,
          leaseDurationMs := o.leaseDurationMs }
      perform (.setPendingOffer offerId
        { offer, owner := request.owner, recoveryOfRunId := pendingOffer.recoveryOfRunId,
          lease := none })
      return offer

/-- Grant the lease of an offer, or return the one it has. -/
def accept (offerId : String) : Service ExecutionJobLease := do
  match ← Memory.pendingOffer offerId with
  | none => fail .unknownOffer ("offer " ++ offerId ++ " is not known") []
  | some pending =>
    match pending.lease with
    | some lease => return lease
    | none =>
      let lease ← RunOwnershipService.grant o pending.offer.job pending.owner
        pending.recoveryOfRunId
      perform (.setPendingOffer offerId { pending with lease := some lease })
      return lease

def renew (lease : ExecutionJobLease) : Service ExecutionJobLease :=
  RunOwnershipService.renew o lease

def complete (lease : ExecutionJobLease) (completion : ExecutionCompletion) :
    Service RunCompletionDisposition :=
  RunOwnershipService.complete o lease completion

def completionOf (runId : String) : Service (Option ExecutionCompletion) :=
  Store.completion runId

end ExecutionJobService

end Qualigence.Core
