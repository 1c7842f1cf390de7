import Qualigence.Kernel.Execution
import Qualigence.Runner.Replay

/-! # Serving an offer

A Runner accepts an offer, records what the execution does and captures, drains what it spooled to
Core and sends the completion of the run. Sessions, targets, the spool and the lease can answer in
any way and at any point; one offer is served after another, and what a crash or an outage left
behind is replayed between them.
-/

namespace Qualigence.Runner

open Foundation Protocol Trace Evidence Kernel
open Core (Fault)

/-! ## Operations -/

/-- What serving an offer asks for. Operations of a dependency are those of the execution. -/
inductive ServeOp where
  | upload (op : ReplayOp)
  | accept (offer : ExecutionJobOffer)
  | saveLease (lease : ExecutionJobLease)
  | loadLease (runId : String)
  | currentLease
  | assertLeaseActive
  | open (job : AcceptedExecutionJob)
  | newRecorder
  | append (runId stage : String) (stepIndex : Option ℕ)
  | observe (ordinal : ℕ)
  | captureError (ordinal : ℕ)
  | dependency (op : RuntimeOp)
  | finish (completion : Option ExecutionCompletion)
  | closeResources
  | dispose
  | complete (lease : ExecutionJobLease) (completion : ExecutionCompletion)

def ServeOp.Reply : ServeOp → Type
  | upload op => op.Reply
  | accept _ | currentLease => ExecutionJobLease
  | loadLease _ => Option ExecutionJobLease
  | saveLease _ | assertLeaseActive | .open _ | newRecorder | append .. | finish _
  | closeResources | dispose | complete .. => Unit
  | observe _ => List String × List RawCapturedArtifact
  | captureError _ => Thrown
  | dependency op => op.Reply

abbrev serveSignature : Signature := ⟨ServeOp, ServeOp.Reply⟩

abbrev Serving (α : Type) := Program serveSignature Thrown α

def Serving.perform (op : ServeOp) : Serving op.Reply := Program.perform (S := serveSignature) op

/-- Uploads while an offer is served; what ends them is no error that the Runner knows. -/
def Replaying.served {α : Type} (p : Replaying α) : Serving α :=
  Program.relabel ServeOp.upload (fun _ r => r) (fun _ => UploadFailure.lost)
    (fun _ => Thrown.other) p

/-! ## The execution -/

def StagePayload.stage : StagePayload → String
  | .observation _ => "observation"
  | .decision _ => "decision"
  | .actionResolved _ => "action_resolved"
  | .policyAuthorized _ => "policy_authorized"
  | .policyDenied _ => "policy_denied"
  | .actionExecuted _ => "action_executed"
  | .verification _ => "verification"
  | .finding _ => "finding"
  | .runCompleted _ => "run_completed"

/-- The Runner has one tenant, if its artifacts are uploaded, and a run belongs to the project of
its job. -/
structure ServeScope where
  tenantId : Option String
  projectOf : String → String

section Execution

variable (P : Platform) (scope : ServeScope)

/-- `artifactRefs.set(name, artifactId)`. -/
def setRef (artifactRefs : List (String × String)) (ref : String × String) :
    List (String × String) :=
  if artifactRefs.any fun r => r.1 = ref.1 then
    artifactRefs.map fun r => if r.1 = ref.1 then ref else r
  else artifactRefs ++ [ref]

/-- The references of a graph name its artifacts by their ids, and all of them. -/
def rewriteRefs (refs : List String) (spooled : List (String × String)) : List String :=
  let artifactRefs := spooled.foldl setRef []
  if artifactRefs.isEmpty then refs
  else
    (refs.map (fun ref => ((artifactRefs.find? fun r => r.1 = ref).map (·.2)).getD ref) ++
      artifactRefs.map (·.2)).eraseDups

/-- What is captured is spooled when the Runner has a tenant and the target is a web page. A capture
that is given up fails with the reason for it. -/
def captureArtifacts (job : AcceptedExecutionJob) (ordinal : ℕ) : Serving (List String) := do
  let observed : List String × List RawCapturedArtifact ← Serving.perform (.observe ordinal)
  match scope.tenantId, job.target with
  | some tenantId, .web _ =>
    let spooled ← (SpoolingArtifactObserver.spoolArtifacts P tenantId (scope.projectOf job.runId)
      job.runId observed.2).replayed.served.attempt
    match spooled with
    | .ok artifactRefs => return rewriteRefs observed.1 artifactRefs
    | .error _ =>
      let reason : Thrown ← Serving.perform (.captureError ordinal)
      .throw reason
  | _, _ => return observed.1

/-- How the dependencies of an execution are served. -/
def serveDependency (job : AcceptedExecutionJob) : (op : RuntimeOp) → Serving op.Reply
  | .capture ordinal => captureArtifacts P scope job ordinal
  | .append _ stepIndex payload =>
    Serving.perform (.append job.runId (StagePayload.stage payload) stepIndex)
  | op => Serving.perform (.dependency op)

def execution (job : AcceptedExecutionJob) : Serving ExecutionCompletion :=
  Program.translate (serveDependency P scope job) (Kernel.run job)

end Execution

/-! ## The lease -/

namespace AcceptedLeaseLifecycle

/-- The lease is checked before and after an operation; when it is lost meanwhile, the operation
fails. -/
def duringLease {α : Type} (operation : Serving α) : Serving α := do
  Serving.perform .assertLeaseActive
  let value ← operation
  Serving.perform .assertLeaseActive
  return value

end AcceptedLeaseLifecycle

/-! ## The compositions -/

section Compositions

variable (P : Platform) (scope : ServeScope) (fuel : ℕ)

/-- Whatever happens, something is done in the end; a failure before is what is reported. -/
def endingWith (last : ServeOp) {α : Type} (p : Serving α) : Serving α := do
  let outcome ← p.attempt
  let ended ← (Serving.perform last).attempt
  match outcome, ended with
  | .error e, _ => .throw e
  | .ok _, .error e => .throw e
  | .ok a, .ok _ => return a

/-- A failure ends the lease. -/
def disposing {α : Type} (p : Serving α) : Serving α := do
  match ← p.attempt with
  | .ok a => return a
  | .error e =>
    Serving.perform .dispose
    .throw e

/-- A part that is left out under a condition. -/
def onlyIf (condition : Bool) (p : Serving Unit) : Serving Unit :=
  if condition then p else return

def drainArtifacts (lease : ExecutionJobLease) (runId : String) : Serving Unit := do
  let _ ← (ArtifactUploadPump.drain lease fuel runId).replayed.served
  return

/-- The artifacts of a run are drained with the lease as it is then. -/
def drainOwnArtifacts (runId : String) : Serving Unit := do
  let lease : ExecutionJobLease ← Serving.perform .currentLease
  drainArtifacts fuel lease runId

def drainTrace (runId : String) : Serving Unit := do
  let limit : SpoolBatchLimit ← Serving.perform (.upload .batchLimit)
  (TraceUploadPump.drain runId limit fuel 1).served

/-- The completion is sent when the signal is not aborted. -/
def sendCompletion (completion : ExecutionCompletion) : Serving Unit := do
  Serving.perform (.upload .throwIfAborted)
  let lease : ExecutionJobLease ← Serving.perform .currentLease
  Serving.perform (.complete lease completion)

namespace RunnerOfferRuntime

/-- `finalize`. -/
def finalize (completion : ExecutionCompletion) : Serving Unit := do
  onlyIf scope.tenantId.isSome (drainOwnArtifacts fuel completion.runId)
  drainTrace fuel completion.runId
  sendCompletion completion

def completionForTargetError (lease : ExecutionJobLease) (errorCode : String) :
    ExecutionTargetErrorStatus → ExecutionCompletion
  | .blocked => ⟨lease.jobId, lease.runId, .blocked (some errorCode)⟩
  | .error => ⟨lease.jobId, lease.runId, .error errorCode⟩

/-- The target could not be opened: the run ends with its error. -/
def completeTargetError (lease : ExecutionJobLease) (errorCode : String)
    (completionStatus : ExecutionTargetErrorStatus) : Serving Unit := do
  let completion := completionForTargetError lease errorCode completionStatus
  Serving.perform .newRecorder
  AcceptedLeaseLifecycle.duringLease
    (Serving.perform (.append lease.runId "run_completed" none))
  AcceptedLeaseLifecycle.duringLease (finalize scope fuel completion)
  Serving.perform (.finish (some completion))

/-- `LeasedJobExecutor.execute` with the lifecycle of the accepted lease. -/
def execute (offer : ExecutionJobOffer) : Serving Unit := do
  let lease : ExecutionJobLease ← Serving.perform .currentLease
  Serving.perform (.saveLease lease)
  Serving.perform .newRecorder
  let completion ← execution P scope offer.job
  AcceptedLeaseLifecycle.duringLease (finalize scope fuel completion)
  Serving.perform (.finish (some completion))

/-- What follows from the attempt to open the target. -/
def serveOpened (offer : ExecutionJobOffer) (lease : ExecutionJobLease) :
    Except Thrown Unit → Serving Unit
  | .ok _ => endingWith .closeResources (execute P scope fuel offer)
  | .error (.executionTarget errorCode completionStatus) =>
    completeTargetError scope fuel lease errorCode completionStatus
  | .error e => .throw e

def serve (offer : ExecutionJobOffer) (lease : ExecutionJobLease) : Serving Unit := do
  let opened ← (AcceptedLeaseLifecycle.duringLease (Serving.perform (.open offer.job))).attempt
  serveOpened P scope fuel offer lease opened

/-- `run` of an offer that the policy gate admits. -/
def run (offer : ExecutionJobOffer) : Serving Unit := do
  let lease : ExecutionJobLease ← Serving.perform (.accept offer)
  Serving.perform (.saveLease lease)
  endingWith .dispose (serve P scope fuel offer lease)

end RunnerOfferRuntime

namespace RunnerClient

/-- The finalization that `serveNextOffer` hands to the executor. -/
def finalize (runId : String) (completion : ExecutionCompletion) : Serving Unit := do
  drainOwnArtifacts fuel runId
  drainTrace fuel runId
  sendCompletion completion

/-- What `LeasedJobExecutor.execute` does with a completion. -/
def completeExecution (finalizes : Bool) (offer : ExecutionJobOffer)
    (completion : ExecutionCompletion) : Serving ExecutionCompletion := do
  onlyIf finalizes
    (AcceptedLeaseLifecycle.duringLease (finalize fuel offer.job.runId completion))
  Serving.perform (.finish (some completion))
  return completion

/-- `LeasedJobExecutor.execute` with a lifecycle of its own. -/
def execute (finalizes : Bool) (offer : ExecutionJobOffer) : Serving ExecutionCompletion := do
  Serving.perform .newRecorder
  match ← (execution P scope offer.job).attempt with
  | .ok completion => completeExecution fuel finalizes offer completion
  | .error e =>
    let _ ← (Serving.perform (.finish none)).attempt
    .throw e

/-- `serveNextOffer`, with an executor that uses the finalization or does not. -/
def serveNextOffer (finalizes : Bool) (offer : ExecutionJobOffer) : Serving Unit := do
  let accepted : ExecutionJobLease ← Serving.perform (.accept offer)
  Serving.perform (.saveLease accepted)
  let completion ← disposing (execute P scope fuel finalizes offer)
  let lease : ExecutionJobLease ← Serving.perform .currentLease
  Serving.perform (.saveLease lease)
  onlyIf (!finalizes) do
    drainArtifacts fuel lease offer.job.runId
    drainTrace fuel offer.job.runId
    Serving.perform (.complete lease completion)

/-- `replay`. -/
def replay (runId : String) : Serving Unit := do
  let lease : Option ExecutionJobLease ← Serving.perform (.loadLease runId)
  match lease with
  | some lease =>
    drainArtifacts fuel lease runId
    drainTrace fuel runId
  | none =>
    let artifacts : List ArtifactUploadManifest ← Serving.perform
      (.upload (.artifact (.pendingArtifactManifests runId)))
    if artifacts.isEmpty then drainTrace fuel runId else .throw .other

end RunnerClient

/-- What a Runner does, one after another. -/
inductive ServeRequest where
  | offer (fuel : ℕ) (offered : ExecutionJobOffer)
  | nextOffer (fuel : ℕ) (finalizes : Bool) (offered : ExecutionJobOffer)
  | replayPendingRuns (fuel : ℕ)
  | replay (fuel : ℕ) (runId : String)

def ServeRequest.body : ServeRequest → Serving Unit
  | .offer fuel offered => RunnerOfferRuntime.run P scope fuel offered
  | .nextOffer fuel finalizes offered =>
    RunnerClient.serveNextOffer P scope fuel finalizes offered
  | .replayPendingRuns fuel => do
    let _ ← (Runner.replayPendingRuns fuel).served
    return
  | .replay fuel runId => RunnerClient.replay fuel runId

end Compositions

/-! ## The Runner -/

/-- The spool, the recorder at work, and what was sent. The traces and artifacts that were spooled
and that Core has not acknowledged since are only observed, and so are all events recorded. -/
structure ServeWorld where
  trace : SpoolDb
  artifacts : ArtifactSpoolDb
  recorder : Recorder
  recorded : List TraceEvent
  unacknowledged : List TraceEvent
  unacknowledgedArtifacts : List ArtifactUploadManifest
  completions : List ExecutionCompletion
  draws : ℕ

def ServeWorld.initial : ServeWorld := ⟨.empty, .empty, .fresh, [], [], [], [], 0⟩

/-- How the environment answers an operation, and whether an operation of the spool fails or is
given up. The payload is that of an event that is recorded. -/
structure ServeCircumstances where
  answer : (op : ServeOp) → Except Thrown op.Reply
  fault : Fault
  error : Thrown
  payload : JsValue
  payload_ne : payload ≠ .undefined
  limits : SpoolLimits
  artifactLimits : ArtifactSpoolLimits
  now : Timestamp

namespace ServeWorld

variable (P : Platform) (validObservation : JsValue → Bool)

abbrev Outcome (α : Type) := Except Thrown α × ServeWorld

/-- An operation of the spool. -/
def spooling {α : Type} (e : ServeCircumstances) (w : ServeWorld) (r : Outcome α) : Outcome α :=
  match e.fault with
  | .none => r
  | .before => (.error e.error, w)
  | .after => (.error e.error, r.2)

/-- An operation on the tables of artifacts. -/
def onArtifacts (w : ServeWorld) (r : SqliteRunnerSpool.ArtifactResult) : Outcome Unit :=
  (r.1.mapError fun _ => .other, { w with artifacts := r.2 })

/-- The artifacts that were not acknowledged before an answer and are not by it. -/
def afterArtifactAck (w : ServeWorld) (ack : ArtifactUploadAck) : ServeWorld :=
  if ack.acknowledged then
    { w with
      unacknowledgedArtifacts := w.unacknowledgedArtifacts.filter fun m =>
        ¬ (m.artifactId = ack.artifactId ∧ m.runId = ack.runId) }
  else w

/-- An answer of Core about an artifact. -/
def artifactAnswer (w : ServeWorld) (r : Except Thrown ArtifactUploadAck) :
    Outcome ArtifactUploadAck :=
  match r with
  | .ok ack => (.ok ack, w.afterArtifactAck ack)
  | .error e => (.error e, w)

def submit (w : ServeWorld) (batch : ExecutionEventBatch) (r : Except Thrown ExecutionEventAck) :
    Outcome ExecutionEventAck :=
  match r with
  | .ok ack =>
    (.ok ack,
      { w with
        unacknowledged := w.unacknowledged.filter fun event =>
          ¬ (event.runId = batch.runId ∧ event.sequenceNumber < ack.nextExpectedSequenceNumber) })
  | .error e => (.error e, w)

def append (e : ServeCircumstances) (runId stage : String) (stepIndex : Option ℕ)
    (w : ServeWorld) : Outcome Unit :=
  match SpoolingTraceRecorder.append P validObservation e.limits
    ⟨runId, stage, stepIndex, e.payload, e.payload_ne⟩ w.recorder w.trace with
  | (.ok event, recorder, trace) =>
    (.ok (),
      { w with
        trace
        recorder
        recorded := w.recorded ++ [event]
        unacknowledged := w.unacknowledged ++ [event] })
  | (.error _, recorder, trace) => (.error .other, { w with trace, recorder })

def saveArtifactManifest (e : ServeCircumstances) (manifest : ArtifactUploadManifest)
    (w : ServeWorld) : Outcome Unit :=
  match SqliteRunnerSpool.saveArtifactManifest manifest e.now w.artifacts with
  | (.ok _, artifacts) =>
    (.ok (),
      { w with
        artifacts
        unacknowledgedArtifacts := w.unacknowledgedArtifacts ++ [manifest] })
  | (.error _, artifacts) => (.error .other, { w with artifacts })

def artifact (e : ServeCircumstances) : (op : ArtifactOp) → ServeWorld → Outcome op.Reply
  | .saveArtifactManifest manifest, w => spooling e w (w.saveArtifactManifest e manifest)
  | .saveArtifactChunk chunk, w => spooling e w
    (w.onArtifacts (SqliteRunnerSpool.saveArtifactChunk P e.artifactLimits chunk w.artifacts))
  | .pendingArtifactManifests runId, w => spooling e w
    (.ok (SqliteRunnerSpool.pendingArtifactManifests runId w.artifacts), w)
  | .pendingArtifactChunks runId artifactId missingRanges, w => spooling e w
    (.ok (SqliteRunnerSpool.pendingArtifactChunks runId artifactId missingRanges w.artifacts), w)
  | .artifactUploadProgress runId artifactId, w => spooling e w
    (.ok (SqliteRunnerSpool.artifactUploadProgress runId artifactId w.artifacts), w)
  | .acknowledgeArtifactProgress progress, w => spooling e w
    (w.onArtifacts (SqliteRunnerSpool.acknowledgeArtifactProgress progress w.artifacts))
  | .registerArtifactManifest registration, w =>
    w.artifactAnswer (e.answer (.upload (.artifact (.registerArtifactManifest registration))))
  | .uploadArtifactChunk upload, w =>
    w.artifactAnswer (e.answer (.upload (.artifact (.uploadArtifactChunk upload))))

def upload (e : ServeCircumstances) : (op : ReplayOp) → ServeWorld → Outcome op.Reply
  | .artifact op, w => artifact P e op w
  | .pending runId fromSequence limit, w => spooling e w
    (.ok (SqliteRunnerSpool.pending runId fromSequence limit w.trace), w)
  | .acknowledge runId next, w => spooling e w
    (.ok (), { w with trace := SqliteRunnerSpool.acknowledge runId next w.trace })
  | .pendingRunIds, w => spooling e w
    (.ok (SqliteRunnerSpool.pendingRunIds w.trace w.artifacts), w)
  | .submit batch, w => w.submit batch (e.answer (.upload (.submit batch)))
  | .throwIfAborted, w => (e.answer (.upload .throwIfAborted), w)
  | .loadLeaseForRun runId, w => (e.answer (.upload (.loadLeaseForRun runId)), w)
  | .batchLimit, w => (e.answer (.upload .batchLimit), w)
  | .generateBatchId, w => (e.answer (.upload .generateBatchId), w)

def act (e : ServeCircumstances) : (op : ServeOp) → ServeWorld → Outcome op.Reply
  | .upload op, w => upload P e op w
  | .append runId stage stepIndex, w => spooling e w
    (w.append P validObservation e runId stage stepIndex)
  | .newRecorder, w => (.ok (), { w with recorder := .fresh })
  | .complete lease completion, w =>
    (e.answer (.complete lease completion), { w with completions := w.completions ++ [completion] })
  | op, w => (e.answer op, w)

def handler (circumstances : ℕ → ServeCircumstances) :
    Handler serveSignature Thrown ServeWorld := fun op w =>
  act P validObservation (circumstances w.draws) op { w with draws := w.draws + 1 }

end ServeWorld

end Qualigence.Runner
