import Qualigence.Core.Sessions
import Qualigence.Foundation.History

/-! # The runner protocol application

`CoreRunnerProtocolApplication` serializes the calls of all sessions: each runs to its end
before the next one starts. A history is a sequence of calls, each with the reply it got;
a restart of the process forgets what is only in memory.
-/

namespace Qualigence.Core

open Foundation Protocol Lease

namespace CoreRunnerProtocolApplication

variable (o : CoreOptions)

def requireSession (sessionId : String) : Service RunnerSessionRecord := do
  match ← Memory.session sessionId with
  | some session => return session
  | none => fail .unknownSession ("session " ++ sessionId ++ " is not known") []

def requireOwner (sessionId runId : String) : Service Unit := do
  let session ← requireSession sessionId
  let owner ← RunOwnershipService.ownerOf runId
  if owner = some ⟨session.identity.runnerId, sessionId⟩ then return
  else fail .leaseLost ("session " ++ sessionId ++ " does not own run " ++ runId) []

def openSession (hello : RunnerHello) (identity : AuthenticatedRunnerContext) :
    Service RunnerWelcome :=
  RunnerSessionService.register o hello identity

/-- The value whose hash identifies a request for an offer. -/
def offerRequestValue (job : AcceptedExecutionJob) (requirements : List String) : JsValue :=
  .obj [("job", job.toValue), ("requirements", AppTarget.strings requirements)]

def createOffer (sessionId : String) (job : AcceptedExecutionJob) (requirements : List String) :
    Service ExecutionJobOffer := do
  let session ← requireSession sessionId
  let canonical := canonicalPayloadHash o.platform (offerRequestValue job requirements)
  match ← Memory.offerByJob job.jobId, ← Memory.offerByRun job.runId with
  | none, none =>
    let offer ← ExecutionJobService.offer o.toRunOwnershipOptions
      { owner := ⟨session.identity.runnerId, sessionId⟩, capabilities := session.capabilities,
        job, requiredCapabilities := requirements, recoveryOfRunId := none }
    perform (.rememberOffer job.jobId job.runId canonical sessionId offer)
    return offer
  | some byJob, some byRun =>
    if byJob.ref ≠ byRun.ref ∨ byJob.canonical ≠ canonical ∨ byJob.sessionId ≠ sessionId then
      fail .runIdentityMismatch
        ("job " ++ job.jobId ++ " or run " ++ job.runId ++
          " was replayed with different content") []
    else return byJob.offer
  | _, _ =>
    fail .runIdentityMismatch
      ("job " ++ job.jobId ++ " or run " ++ job.runId ++ " was replayed with different content") []

def accept (sessionId offerId : String) : Service ExecutionJobLease := do
  let _ ← requireSession sessionId
  let lease ← ExecutionJobService.accept o.toRunOwnershipOptions offerId
  match ← Memory.offerByRun lease.runId with
  | some offered =>
    perform (.recordRun offered.offer.job)
    return lease
  | none => return lease

def renew (sessionId : String) (lease : ExecutionJobLease) : Service ExecutionJobLease := do
  requireOwner sessionId lease.runId
  ExecutionJobService.renew o.toRunOwnershipOptions lease

def ingest (sessionId : String) (batch : ExecutionEventBatch) : Service ExecutionEventAck :=
  RunnerSessionService.ingest o sessionId batch

def invokeCompletionSink (sessionId : String) (completion : ExecutionCompletion)
    (disposition : RunCompletionDisposition) : Service Unit := do
  let _ ← requireSession sessionId
  match disposition with
  | .completed => perform (.completionSink completion)
  | .duplicate =>
    match ← ExecutionJobService.completionOf completion.runId with
    | some authoritative => perform (.completionSink authoritative)
    | none => return

def complete (sessionId : String) (lease : ExecutionJobLease)
    (completion : ExecutionCompletion) : Service Unit := do
  requireOwner sessionId lease.runId
  let disposition ←
    if lease.leaseToken = "" then
      RunOwnershipService.completeStored o.toRunOwnershipOptions lease.runId completion
    else ExecutionJobService.complete o.toRunOwnershipOptions lease completion
  invokeCompletionSink sessionId completion disposition

def closeSession (sessionId : String) : Service Unit :=
  RunnerSessionService.closeSession sessionId

end CoreRunnerProtocolApplication

/-! ## Histories -/

/-- A call of the application. -/
inductive AppCall where
  | openSession (hello : RunnerHello) (identity : AuthenticatedRunnerContext)
  | createOffer (sessionId : String) (job : AcceptedExecutionJob) (requirements : List String)
  | accept (sessionId offerId : String)
  | renew (sessionId : String) (lease : ExecutionJobLease)
  | ingest (sessionId : String) (batch : ExecutionEventBatch)
  | complete (sessionId : String) (lease : ExecutionJobLease) (completion : ExecutionCompletion)
  | closeSession (sessionId : String)

inductive AppReply where
  | welcome (welcome : RunnerWelcome)
  | offer (offer : ExecutionJobOffer)
  | lease (lease : ExecutionJobLease)
  | ack (ack : ExecutionEventAck)
  | done
  deriving DecidableEq

/-- The program of a call. -/
def AppCall.body (o : CoreOptions) : AppCall → Service AppReply
  | .openSession hello identity =>
    .welcome <$> CoreRunnerProtocolApplication.openSession o hello identity
  | .createOffer sessionId job requirements =>
    .offer <$> CoreRunnerProtocolApplication.createOffer o sessionId job requirements
  | .accept sessionId offerId =>
    .lease <$> CoreRunnerProtocolApplication.accept o sessionId offerId
  | .renew sessionId lease => .lease <$> CoreRunnerProtocolApplication.renew o sessionId lease
  | .ingest sessionId batch => .ack <$> CoreRunnerProtocolApplication.ingest o sessionId batch
  | .complete sessionId lease completion => do
    CoreRunnerProtocolApplication.complete o sessionId lease completion
    return .done
  | .closeSession sessionId => do
    CoreRunnerProtocolApplication.closeSession sessionId
    return .done

/-- The process starts again: the database stays, the memory is empty. -/
def World.restart {τ : Type} (w : World τ) : World τ :=
  { w with
    live := fun _ => none
    offers := fun _ => none
    offersByJob := fun _ => none
    offersByRun := fun _ => none }

/-- Another component stores the row of a run, with its cursor at the first event. -/
def World.createRun {τ : Type} (w : World τ) (runId : String) : World τ :=
  match w.trace.runs.insert ⟨runId, 1⟩ with
  | some runs => { w with trace := { w.trace with runs } }
  | none => w

inductive AppEvent where
  | call (call : AppCall)
  | createRun (runId : String)
  | restart

/-- The world with the calls made so far and their replies, the latest first. -/
structure AppState (τ : Type) where
  world : World τ
  replies : List (AppCall × Except CoreError AppReply)

section Run

variable {τ : Type} [DecidableEq τ] (O : Oracle) (scope : τ) (o : CoreOptions)

def AppState.step (s : AppState τ) : AppEvent → AppState τ
  | .call call =>
    let r := (call.body o).run (handler o.platform O scope) s.world
    ⟨r.2, (call, r.1) :: s.replies⟩
  | .createRun runId => ⟨s.world.createRun runId, s.replies⟩
  | .restart => ⟨s.world.restart, s.replies⟩

/-- The state after a sequence of events from empty stores. -/
def AppState.after (events : List AppEvent) : AppState τ :=
  events.foldl (AppState.step O scope o) ⟨.initial, []⟩

/-- Every event of a sequence meets a condition in the world it happens in. -/
abbrev AppState.Meets (ok : World τ → AppEvent → Prop) (s : AppState τ)
    (events : List AppEvent) : Prop :=
  Foundation.Meets (AppState.step O scope o) (fun s e => ok s.world e) s events

end Run

end Qualigence.Core
