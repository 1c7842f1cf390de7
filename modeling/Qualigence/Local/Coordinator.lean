import Qualigence.Lease.Lifecycle
import Qualigence.Sqlite.IntakeStore

/-! # The coordinator of local runs

A dispatch pass offers the pending runs to the connected Runner, and a reconciliation pass looks for
the completions of the offered runs in the runner control store and applies them. Passes, the calls
of the Runner protocol on leases and what happens to the connection, the clock and the storage take
turns, one operation at a time.
-/

namespace Qualigence.Local

open Foundation Protocol Sqlite
open Lease (RunnerControlDb RunnerCompletionRecord LeaseCall StoreError)

/-- The authenticated Runner of a connection. -/
structure AuthenticatedRunner where
  runnerId : String
  isLocal : Bool
  capabilities : List String
  deriving DecidableEq

structure LocalRunDispatch where
  runId : String
  expectedAttempt : ℤ
  job : AcceptedExecutionJob

structure LocalRunCompletionCandidate where
  runId : String
  jobId : String
  jobSha256 : String
  expectedAttempt : ℤ

/-- An error of the intake store or of the runner control store, or an offer that failed. -/
inductive LocalError where
  | sqlite (error : SqliteFault)
  | control (error : StoreError)
  | offerFailed

/-! ## Reads of the intake store -/

/-- Texts in the order of the database, by their bytes. -/
def textLe (s t : String) : Bool := decide (utf8Bytes s ≤ utf8Bytes t)

/-- `ORDER BY` the given columns. -/
def orderedBy (columns : List (LocalRunIntakeRow → String)) (r r' : LocalRunIntakeRow) : Bool :=
  match columns with
  | [] => true
  | column :: rest =>
    if column r = column r' then orderedBy rest r r' else textLe (column r) (column r')

def maxBatch : ℕ := 256

def invalidBatch : SqliteFault := raised "Error" "Invalid Local intake batch limit."

def pendingDispatches (P : Platform) (limit : ℕ) (db : IntakeDb) :
    Except SqliteFault (List LocalRunDispatch) :=
  if limit = 0 ∨ maxBatch < limit then .error invalidBatch
  else
    let rows := (db.intakes.rows.filter fun r => r.dispatchState = .pendingRunner).mergeSort
      (orderedBy [(·.updatedAt), (·.runId)])
    (rows.take limit).mapM fun row => match parseExecutionJob P row.job.toValue with
      | .ok job => .ok ⟨row.runId, row.dispatchAttempt, job⟩
      | .error _ => .error (raised "Error" "malformed execution Job")

def pendingCompletions (now : Timestamp) (limit : ℕ) (db : IntakeDb) :
    Except SqliteFault (List LocalRunCompletionCandidate) := do
  let _ ← instant now
  if limit = 0 ∨ maxBatch < limit then .error invalidBatch
  else
    let rows := (db.intakes.rows.filter fun r =>
      (r.dispatchState = .offered ∨ r.dispatchState = .offerOutcomeUnknown) ∧
        r.completionState = .awaiting ∧ textLe r.completionNextAttemptAt now).mergeSort
      (orderedBy [(·.completionNextAttemptAt), (·.updatedAt), (·.runId)])
    .ok ((rows.take limit).map fun row =>
      ⟨row.runId, row.jobId, row.jobSha256, row.completionAttempt⟩)

def hasCompletionBlockers (db : IntakeDb) : Bool :=
  db.intakes.rows.any fun r =>
    r.completionState = .integrityBlocked ∨ r.completionState = .retryExhausted

/-! ## Operations -/

/-- What happens beside the passes: the clock and the storage, the connection and what an offer on
it comes to, and the calls on leases. -/
inductive Surroundings where
  | clock (now : Timestamp)
  | storage (failing : Bool)
  | connection (runner : Option AuthenticatedRunner)
  | offers (failing : Bool)
  | lease (call : LeaseCall)

inductive LocalOp where
  | now
  | pendingDispatches (limit : ℕ)
  | connection
  | offer (job : AcceptedExecutionJob) (requiredCapabilities : List String)
  | intake (request : IntakeRequest)
  | pendingCompletions (now : Timestamp) (limit : ℕ)
  | completionRecord (runId : String)
  | hasCompletionBlockers
  | surroundings (change : Surroundings)

abbrev localSignature : Signature where
  Op := LocalOp
  Reply
    | .now => Timestamp
    | .pendingDispatches _ => List LocalRunDispatch
    | .connection => Option AuthenticatedRunner
    | .intake _ => IntakeAnswer
    | .pendingCompletions _ _ => List LocalRunCompletionCandidate
    | .completionRecord _ => Option RunnerCompletionRecord
    | .hasCompletionBlockers => Bool
    | _ => Unit

abbrev LocalProgram := Program localSignature LocalError

/-- The stores and the surroundings. `misses` records for which run a look for its completion came
to nothing: there was none, or the look or what followed from it failed. -/
structure LocalWorld where
  intake : IntakeDb
  control : RunnerControlDb Unit
  now : Timestamp
  storageFails : Bool
  runner : Option AuthenticatedRunner
  offersFail : Bool
  misses : List String

namespace LocalWorld

def initial (now : Timestamp) : LocalWorld :=
  ⟨.initial, .initial, now, false, none, false, []⟩

def miss (w : LocalWorld) (runId : String) : LocalWorld :=
  { w with misses := w.misses ++ [runId] }

end LocalWorld

/-- The run whose completion a request of the intake is about, if a failure of it is a miss. -/
def missedBy : IntakeRequest → Option String
  | .applyCompletion q => some q.runId
  | .markIntegrityBlocked runId _ _ _ => some runId
  | _ => none

section Handler

variable (P : Platform) (policy : LocalCompletionRetryPolicy)

/-- An operation of the storage. -/
def storageBusy : LocalError :=
  .sqlite (mapBusyError (.driver "SQLITE_BUSY" "database is locked"))

/-- A request of the intake store, which takes effect as a whole. -/
def performIntake (request : IntakeRequest) (w : LocalWorld) :
    Except LocalError IntakeAnswer × LocalWorld :=
  let r := if w.storageFails then (.error storageBusy, w.intake)
    else
      let r := (request.operation P policy).exec intakeHandler w.intake
      (r.1.mapError .sqlite, r.2)
  match r.1, missedBy request with
  | .error e, some runId => (.error e, { w with intake := r.2 }.miss runId)
  | answer, _ => (answer, { w with intake := r.2 })

def performCompletionRecord (runId : String) (w : LocalWorld) :
    Except LocalError (Option RunnerCompletionRecord) × LocalWorld :=
  let r := if w.storageFails then .error storageBusy
    else (Lease.SqliteRunnerControlStore.completionRecord P runId w.control).mapError .control
  match r with
  | .ok (some record) => (.ok (some record), w)
  | r => (r, w.miss runId)

def applySurroundings (change : Surroundings) (w : LocalWorld) : LocalWorld :=
  match change with
  | .clock now => { w with now }
  | .storage failing => { w with storageFails := failing }
  | .connection runner => { w with runner }
  | .offers failing => { w with offersFail := failing }
  | .lease call => { w with control := match call with
      | .grantLease input => (Lease.SqliteRunnerControlStore.grantLease input w.control).2
      | .renewLease input => (Lease.SqliteRunnerControlStore.renewLease P input w.control).2
      | .completeLease input => (Lease.SqliteRunnerControlStore.completeLease P input w.control).2
      | .markLeaseLost runId lostAt =>
        (Lease.SqliteRunnerControlStore.markLeaseLost runId lostAt w.control).2 }

def localHandler : Handler localSignature LocalError LocalWorld
  | .now, w => (.ok w.now, w)
  | .pendingDispatches limit, w =>
    if w.storageFails then (.error storageBusy, w)
    else ((pendingDispatches P limit w.intake).mapError .sqlite, w)
  | .connection, w => (.ok w.runner, w)
  | .offer _ _, w => (if w.offersFail then .error .offerFailed else .ok (), w)
  | .intake request, w => performIntake P policy request w
  | .pendingCompletions now limit, w =>
    if w.storageFails then (.error storageBusy, w)
    else ((pendingCompletions now limit w.intake).mapError .sqlite, w)
  | .completionRecord runId, w => performCompletionRecord P runId w
  | .hasCompletionBlockers, w =>
    if w.storageFails then (.error storageBusy, w)
    else (.ok (hasCompletionBlockers w.intake), w)
  | .surroundings change, w => (.ok (), applySurroundings P change w)

end Handler

/-! ## Passes -/

/-- `WEB_PLAYWRIGHT_V1_REQUIRED_CAPABILITIES`. -/
def webPlaywrightV1RequiredCapabilities : List String :=
  "target:web-playwright" :: webObservationV1CapabilityTokens

def hasWebPlaywrightV1Capabilities (capabilities : List String) : Bool :=
  webPlaywrightV1RequiredCapabilities.all (· ∈ capabilities)

structure LocalRunCoordinatorOptions where
  configuredRunnerId : String
  batchSize : ℕ

/-- What a reconciliation pass leaves in `passHealthy` and `durableBlocked`. -/
structure CoordinatorHealth where
  passHealthy : Bool
  durableBlocked : Bool
  deriving DecidableEq

namespace LocalRunCoordinator

variable (o : LocalRunCoordinatorOptions)

abbrev perform (op : LocalOp) : LocalProgram (localSignature.Reply op) :=
  Program.perform (S := localSignature) op

/-- The offer of a run that has begun. -/
def offerPending (pending : LocalRunDispatch) : LocalProgram Unit :=
  Program.tryCatch (do
    let _ : Unit ← perform (.offer pending.job webPlaywrightV1RequiredCapabilities)
    let offeredAt : Timestamp ← perform .now
    let _ : IntakeAnswer ←
      perform (.intake (.markOffered pending.runId pending.expectedAttempt offeredAt))
    return ()) fun _ => do
      let failedAt : Timestamp ← perform .now
      let _ : IntakeAnswer ← perform (.intake
        (.markOfferOutcomeUnknown pending.runId pending.expectedAttempt failedAt "OfferFailed"))
      return ()

def dispatchPending (pending : LocalRunDispatch) : LocalProgram Unit := do
  let connection : Option AuthenticatedRunner ← perform .connection
  match connection with
  | none => return ()
  | some runner =>
    if runner.runnerId ≠ o.configuredRunnerId ∨ runner.isLocal = false ∨
        hasWebPlaywrightV1Capabilities runner.capabilities = false then return ()
    else
      let startedAt : Timestamp ← perform .now
      let begun : IntakeAnswer ←
        perform (.intake (.beginOffer pending.runId pending.expectedAttempt startedAt))
      if begun = .begun true then offerPending pending else return ()

def dispatchPass : LocalProgram Unit := do
  let pending : List LocalRunDispatch ← perform (.pendingDispatches o.batchSize)
  pending.forM (dispatchPending o)

/-- Record that the completion of a candidate is not there. -/
def recordFailure (candidate : LocalRunCompletionCandidate) (errorCode : String) :
    LocalProgram Bool := do
  let failedAt : Timestamp ← perform .now
  let answer : IntakeAnswer ← perform (.intake (.recordCompletionFailure candidate.runId
    candidate.expectedAttempt errorCode failedAt))
  return answer = .retry .blocked

def markBlocked (candidate : LocalRunCompletionCandidate) (errorCode : String) :
    LocalProgram Unit := do
  let blockedAt : Timestamp ← perform .now
  let _ : IntakeAnswer ← perform (.intake (.markIntegrityBlocked candidate.runId
    candidate.expectedAttempt errorCode blockedAt))
  return ()

/-- The `catch` of `reconcileCandidate`. -/
def recover (candidate : LocalRunCompletionCandidate) (authorityObserved : Bool) :
    LocalError → LocalProgram CoordinatorHealth
  | .control .completionIdentityMismatch => do
    markBlocked candidate "CompletionIdentityMismatch"
    return ⟨true, true⟩
  | _ => do
    let blocked ← recordFailure candidate
      (if authorityObserved then "CompletionApplyFailed" else "CompletionAuthorityUnavailable")
    return ⟨false, blocked⟩

/-- The rest of `reconcileCandidate` when there is no completion yet. -/
def reconcilePending (candidate : LocalRunCompletionCandidate) :
    LocalProgram CoordinatorHealth := do
  let blocked ← recordFailure candidate "CompletionPending"
  return ⟨!blocked, blocked⟩

/-- The rest of `reconcileCandidate` with the completion that the control store holds. -/
def reconcileObserved (candidate : LocalRunCompletionCandidate)
    (authority : RunnerCompletionRecord) : LocalProgram CoordinatorHealth :=
  match authority.jobSha256 with
  | none => do
    markBlocked candidate "CompletionIdentityMismatch"
    return ⟨true, true⟩
  | some jobSha256 =>
    if candidate.jobId ≠ authority.jobId ∨ candidate.jobSha256 ≠ jobSha256 then do
      markBlocked candidate "CompletionIdentityMismatch"
      return ⟨true, true⟩
    else do
      let outcome : IntakeAnswer ← perform (.intake (.applyCompletion
        ⟨candidate.runId, candidate.expectedAttempt, authority.jobId, jobSha256,
          authority.completion, authority.completedAt⟩))
      if outcome = .apply .identityMismatch then
        markBlocked candidate "CompletionIdentityMismatch"
        return ⟨true, true⟩
      else if outcome = .apply .completionConflict then
        markBlocked candidate "CompletionConflict"
        return ⟨true, true⟩
      else return ⟨true, false⟩

/-- Whether the candidate left the pass healthy, and whether it set `durableBlocked`. -/
def reconcileCandidate (candidate : LocalRunCompletionCandidate) :
    LocalProgram CoordinatorHealth := do
  let authority : Except LocalError (Option RunnerCompletionRecord) ←
    Program.attempt (perform (.completionRecord candidate.runId))
  match authority with
  | .error e => recover candidate false e
  | .ok none => (reconcilePending candidate).tryCatch (recover candidate false)
  | .ok (some authority) =>
    (reconcileObserved candidate authority).tryCatch (recover candidate true)

def reconcileAll : List LocalRunCompletionCandidate → Bool → LocalProgram Bool
  | [], passHealthy => return passHealthy
  | candidate :: rest, passHealthy => do
    let health ← reconcileCandidate candidate
    reconcileAll rest (health.passHealthy && passHealthy)

def reconciliationPass : LocalProgram CoordinatorHealth := do
  let now : Timestamp ← perform .now
  let candidates : List LocalRunCompletionCandidate ←
    perform (.pendingCompletions now o.batchSize)
  let passHealthy ← reconcileAll candidates true
  let durableBlocked : Bool ← perform .hasCompletionBlockers
  return ⟨passHealthy, durableBlocked⟩

/-- What `startup` does before its reconciliation pass. -/
def quarantine : LocalProgram Unit := do
  let quarantinedAt : Timestamp ← perform .now
  let _ : IntakeAnswer ← perform (.intake (.quarantineInterruptedDispatches quarantinedAt))
  return ()

end LocalRunCoordinator

/-! ## Requests -/

/-- A pass of the coordinator, a new run, or a change of the surroundings. -/
inductive LocalRequest where
  | create (job : AcceptedExecutionJob)
  | startup
  | dispatchPass
  | reconciliationPass
  | surroundings (change : Surroundings)

open LocalRunCoordinator in
def LocalRequest.body (o : LocalRunCoordinatorOptions) : LocalRequest → LocalProgram Unit
  | .create job => do
    let createdAt : Timestamp ← perform .now
    let _ : IntakeAnswer ← perform (.intake (.create job createdAt))
    return ()
  | .startup => do
    LocalRunCoordinator.quarantine
    let _ : Bool ← perform .hasCompletionBlockers
    let _ ← LocalRunCoordinator.reconciliationPass o
    return ()
  | .dispatchPass => LocalRunCoordinator.dispatchPass o
  | .reconciliationPass => do
    let _ ← LocalRunCoordinator.reconciliationPass o
    return ()
  | .surroundings change => perform (.surroundings change)

end Qualigence.Local
