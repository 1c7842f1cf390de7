import Qualigence.Core.Application

/-! # What the services write

Every operation writes one part of the world or none. The footprint of a service is the
set of parts its operations can write; what it does not write, a call of it keeps.
-/

namespace Qualigence.Core

open Foundation Protocol Lease

inductive Part where
  | nothing
  | leases
  | completions
  | sessions
  | trace
  | offers
  | recordedRuns
  | events
  deriving DecidableEq

/-- The part of the world an operation writes. -/
def CoreOp.writes : CoreOp → Part
  | .grantLease _ | .renewLease _ | .markLeaseLost _ _ => .leases
  | .completeLease _ => .completions
  | .saveSession _ | .closeSession _ _ | .issueResumeToken _ _ _ | .rotateResumeToken _
  | .setSession _ | .deleteSession _ => .sessions
  | .appendTraceEvent _ | .appendFinding _ _ => .trace
  | .setPendingOffer _ _ | .rememberOffer _ _ _ _ _ => .offers
  | .recordRun _ => .recordedRuns
  | .emit _ => .events
  | .now | .generate | .lease _ | .completion _ | .acknowledgedArtifactIds _ _
  | .completionSink _ | .session _ | .pendingOffer _ | .offerByJob _ | .offerByRun _ => .nothing

def reading : Part → Bool
  | .nothing => true
  | _ => false

def leasing : Part → Bool
  | .nothing | .leases => true
  | _ => false

def settling : Part → Bool
  | .nothing | .leases | .completions | .events => true
  | _ => false

def offering : Part → Bool
  | .nothing | .leases | .offers | .recordedRuns => true
  | _ => false

def opening : Part → Bool
  | .nothing | .sessions => true
  | _ => false

def ingesting : Part → Bool
  | .nothing | .trace => true
  | _ => false

/-- The operation writes within a footprint. -/
abbrev Writes (parts : Part → Bool) (op : CoreOp) : Prop := parts op.writes

theorem settling_of_leasing (op : CoreOp) (h : Writes leasing op) : Writes settling op := by
  cases op <;> first | rfl | cases h

theorem offering_of_leasing (op : CoreOp) (h : Writes leasing op) : Writes offering op := by
  cases op <;> first | rfl | cases h

variable {α : Type} {parts : Part → Bool}

theorem uses_nowIso (h : parts .nothing) : nowIso.Uses (Writes parts) :=
  Program.uses_bind (Program.uses_perform h) fun _ => trivial

theorem uses_orPolicyMissing {body : Service α} (h : body.Uses (Writes parts)) :
    (orPolicyMissing body).Uses (Writes parts) := by
  refine Program.uses_tryCatch h fun e => ?_
  split <;> trivial

namespace RunOwnershipService

variable (o : RunOwnershipOptions)

theorem uses_grant (job : AcceptedExecutionJob) (owner : PersistedLeaseOwner)
    (recoveryOfRunId : Option String) :
    (grant o job owner recoveryOfRunId).Uses (Writes leasing) := by
  refine Program.uses_bind (Program.uses_perform rfl) fun leaseToken => ?_
  refine Program.uses_bind (Program.uses_perform rfl) fun n => ?_
  refine Program.uses_bind (Program.uses_perform rfl) fun granted => ?_
  split <;> trivial

theorem uses_requireMatchingLease (lease : ExecutionJobLease) :
    (requireMatchingLease o lease).Uses (Writes leasing) := by
  refine Program.uses_bind (uses_orPolicyMissing (Program.uses_perform rfl)) fun r => ?_
  cases r with
  | none => trivial
  | some record =>
    dsimp only
    split
    · trivial
    split
    · trivial
    refine Program.uses_bind (uses_nowIso rfl) fun t => ?_
    split
    · refine Program.uses_bind (uses_nowIso rfl) fun t' => ?_
      exact Program.uses_bind (Program.uses_perform rfl) fun _ => trivial
    · trivial

theorem uses_completeAgainst (record : PersistedExecutionLease)
    (completion : ExecutionCompletion) (checkedAt : Timestamp) :
    (completeAgainst o record completion checkedAt).Uses (Writes settling) := by
  refine Program.uses_bind (Program.uses_perform rfl) fun outcome => ?_
  cases outcome with
  | completionConflict stored =>
    exact Program.uses_bind (Program.uses_perform rfl) fun _ => trivial
  | rejected => trivial
  | completed => trivial
  | duplicate => trivial

theorem uses_complete (lease : ExecutionJobLease) (completion : ExecutionCompletion) :
    (complete o lease completion).Uses (Writes settling) := by
  refine Program.uses_bind ((uses_requireMatchingLease o lease).mono settling_of_leasing)
    fun record => ?_
  exact Program.uses_bind (uses_nowIso rfl) fun t => uses_completeAgainst o record completion t

theorem uses_completeStored (runId : String) (completion : ExecutionCompletion) :
    (completeStored o runId completion).Uses (Writes settling) := by
  refine Program.uses_bind (Program.uses_perform rfl) fun stored => ?_
  refine Program.uses_bind (uses_nowIso rfl) fun t => ?_
  cases stored with
  | none => trivial
  | some record =>
    dsimp only
    split
    · exact uses_completeAgainst o record completion t
    split
    · trivial
    split
    · refine Program.uses_bind (Program.uses_perform rfl) fun marked => ?_
      split
      · trivial
      refine Program.uses_bind (Program.uses_perform rfl) fun latest => ?_
      cases latest with
      | none => trivial
      | some latest =>
        dsimp only
        split
        · exact uses_completeAgainst o latest completion t
        · trivial
    · exact uses_completeAgainst o record completion t

theorem uses_renew (lease : ExecutionJobLease) : (renew o lease).Uses (Writes leasing) := by
  refine Program.uses_bind (Program.uses_perform rfl) fun n => ?_
  refine Program.uses_bind (uses_orPolicyMissing ?_) fun r => ?_
  · refine Program.uses_bind ?_ fun record => ?_
    · refine Program.uses_bind (uses_requireMatchingLease o lease) fun record => ?_
      split <;> trivial
    · refine Program.uses_bind (uses_nowIso rfl) fun t => ?_
      exact Program.uses_bind (Program.uses_perform rfl) fun _ => trivial
  · dsimp only
    split <;> trivial

theorem uses_markLost (runId : String) : (markLost runId).Uses (Writes leasing) := by
  refine Program.uses_bind (uses_nowIso rfl) fun t => ?_
  exact Program.uses_bind (Program.uses_perform rfl) fun _ => trivial

theorem uses_createRecoveryRun (lostRunId : String) :
    (createRecoveryRun lostRunId).Uses (Writes leasing) := by
  have hnames : ∀ job : AcceptedExecutionJob, Program.Uses (Writes leasing) (do
      let runId ← generate
      let jobId ← generate
      return RecoveredRun.mk (recoveryJob job jobId runId) lostRunId) := fun job =>
    Program.uses_bind (Program.uses_perform rfl) fun _ =>
      Program.uses_bind (Program.uses_perform rfl) fun _ => trivial
  refine Program.uses_bind (Program.uses_perform rfl) fun stored => ?_
  cases stored with
  | none => trivial
  | some record =>
    dsimp only
    split
    · trivial
    refine Program.uses_bind (uses_nowIso rfl) fun t => ?_
    split
    · trivial
    split
    · exact Program.uses_bind (Program.uses_perform rfl) fun _ => hnames record.job
    · exact hnames record.job

theorem uses_authorizeTraceUpload (h : parts .nothing) (identity : AuthenticatedRunnerContext)
    (batch : ExecutionEventBatch) :
    (authorizeTraceUpload identity batch).Uses (Writes parts) := by
  refine Program.uses_bind (Program.uses_perform h) fun stored => ?_
  cases stored with
  | none => trivial
  | some record =>
    dsimp only
    split <;> trivial

end RunOwnershipService

namespace ExecutionJobService

theorem uses_resolveRecovery (request : OfferRequest) :
    (resolveRecovery request).Uses (Writes leasing) := by
  refine Program.uses_bind (Program.uses_perform rfl) fun stored => ?_
  cases stored with
  | none => trivial
  | some stored =>
    dsimp only
    split
    · trivial
    split
    · trivial
    refine Program.uses_bind (uses_nowIso rfl) fun t => ?_
    split
    · trivial
    · exact Program.uses_bind (RunOwnershipService.uses_createRecoveryRun _) fun _ => trivial

variable (o : RunOwnershipOptions)

theorem uses_offer (request : OfferRequest) : (offer o request).Uses (Writes offering) := by
  unfold offer
  split
  · split <;> trivial
  dsimp only
  split
  · trivial
  refine Program.uses_bind ((uses_resolveRecovery _).mono offering_of_leasing) fun _ => ?_
  refine Program.uses_bind (Program.uses_perform rfl) fun _ => ?_
  exact Program.uses_bind (Program.uses_perform rfl) fun _ => trivial

theorem uses_accept (offerId : String) : (accept o offerId).Uses (Writes offering) := by
  refine Program.uses_bind (Program.uses_perform rfl) fun pending => ?_
  cases pending with
  | none => trivial
  | some pending =>
    dsimp only
    split
    · trivial
    refine Program.uses_bind ((RunOwnershipService.uses_grant o _ _ _).mono
      offering_of_leasing) fun _ => ?_
    exact Program.uses_bind (Program.uses_perform rfl) fun _ => trivial

end ExecutionJobService

namespace TraceIngestor

variable (P : Platform)

theorem uses_ingest (submission : TraceEvent) :
    (ingest P submission).Uses (Writes ingesting) := by
  unfold ingest
  dsimp only
  split
  · trivial
  split
  · trivial
  · exact Program.uses_perform rfl
  · refine Program.uses_bind (Program.uses_perform rfl) fun acknowledged => ?_
    split
    · trivial
    · exact Program.uses_perform rfl

end TraceIngestor

namespace RunnerSessionService

variable (o : CoreOptions)

theorem uses_register (hello : RunnerHello) (identity : AuthenticatedRunnerContext) :
    (register o hello identity).Uses (Writes opening) := by
  unfold register
  split
  · trivial
  dsimp only
  split
  · refine Program.uses_bind ?_ fun r => ?_
    · refine Program.uses_bind (Program.uses_perform rfl) fun _ => ?_
      refine Program.uses_bind (uses_nowIso rfl) fun _ => ?_
      refine Program.uses_bind (Program.uses_perform rfl) fun r => ?_
      cases r <;> trivial
    · change Program.Uses _ (nowIso.bind _)
      refine Program.uses_bind (uses_nowIso rfl) fun _ => ?_
      refine Program.uses_bind (Program.uses_perform rfl) fun _ => ?_
      exact Program.uses_bind (Program.uses_perform rfl) fun _ => trivial
  · refine Program.uses_bind (Program.uses_perform rfl) fun sessionId => ?_
    refine Program.uses_bind ?_ fun token => ?_
    · refine Program.uses_bind (Program.uses_perform rfl) fun _ => ?_
      refine Program.uses_bind (Program.uses_perform rfl) fun _ => ?_
      exact Program.uses_bind (Program.uses_perform rfl) fun _ => trivial
    · change Program.Uses _ (nowIso.bind _)
      refine Program.uses_bind (uses_nowIso rfl) fun _ => ?_
      refine Program.uses_bind (Program.uses_perform rfl) fun _ => ?_
      exact Program.uses_bind (Program.uses_perform rfl) fun _ => trivial

theorem uses_closeSession (sessionId : String) :
    (closeSession sessionId).Uses (Writes opening) := by
  refine Program.uses_bind (Program.uses_perform rfl) fun _ => ?_
  exact Program.uses_bind (uses_nowIso rfl) fun _ => Program.uses_perform rfl

theorem uses_ingestEvents (batch : ExecutionEventBatch) (events : List TraceEvent) (next : ℕ) :
    (ingestEvents o batch events next).Uses (Writes ingesting) := by
  induction events generalizing next with
  | nil => trivial
  | cons event events ih =>
    refine Program.uses_bind (TraceIngestor.uses_ingest o.platform event) fun result => ?_
    cases result with
    | accepted next =>
      dsimp only
      split
      · exact Program.uses_bind (Program.uses_perform rfl) fun _ => ih next
      · exact ih next
    | duplicate next => exact ih next
    | _ => trivial

theorem uses_ingest (sessionId : String) (batch : ExecutionEventBatch) :
    (ingest o sessionId batch).Uses (Writes ingesting) := by
  refine Program.uses_bind (Program.uses_perform rfl) fun session => ?_
  cases session with
  | none => trivial
  | some session =>
    exact Program.uses_bind (RunOwnershipService.uses_authorizeTraceUpload rfl _ batch) fun _ =>
      uses_ingestEvents o batch _ _

end RunnerSessionService

namespace CoreRunnerProtocolApplication

theorem uses_requireSession (h : parts .nothing) (sessionId : String) :
    (requireSession sessionId).Uses (Writes parts) := by
  refine Program.uses_bind (Program.uses_perform h) fun r => ?_
  cases r <;> trivial

theorem uses_requireOwner (h : parts .nothing) (sessionId runId : String) :
    (requireOwner sessionId runId).Uses (Writes parts) := by
  refine Program.uses_bind (uses_requireSession h sessionId) fun session => ?_
  refine Program.uses_bind (Program.uses_bind (uses_orPolicyMissing
    (Program.uses_perform h)) fun _ => trivial) fun owner => ?_
  split <;> trivial

theorem uses_invokeCompletionSink (h : parts .nothing) (sessionId : String)
    (completion : ExecutionCompletion) (disposition : RunCompletionDisposition) :
    (invokeCompletionSink sessionId completion disposition).Uses (Writes parts) := by
  refine Program.uses_bind (uses_requireSession h sessionId) fun session => ?_
  cases disposition with
  | completed => exact Program.uses_perform h
  | duplicate =>
    refine Program.uses_bind (Program.uses_perform h) fun stored => ?_
    cases stored with
    | none => trivial
    | some authoritative => exact Program.uses_perform h

variable (o : CoreOptions)

theorem uses_createOffer (sessionId : String) (job : AcceptedExecutionJob)
    (requirements : List String) :
    (createOffer o sessionId job requirements).Uses (Writes offering) := by
  refine Program.uses_bind (uses_requireSession rfl sessionId) fun session => ?_
  refine Program.uses_bind (Program.uses_perform rfl) fun byJob => ?_
  refine Program.uses_bind (Program.uses_perform rfl) fun byRun => ?_
  split
  · refine Program.uses_bind (ExecutionJobService.uses_offer _ _) fun offer => ?_
    exact Program.uses_bind (Program.uses_perform rfl) fun _ => trivial
  · split <;> trivial
  · trivial

theorem uses_accept (sessionId offerId : String) :
    (accept o sessionId offerId).Uses (Writes offering) := by
  refine Program.uses_bind (uses_requireSession rfl sessionId) fun _ => ?_
  refine Program.uses_bind (ExecutionJobService.uses_accept _ _) fun lease => ?_
  refine Program.uses_bind (Program.uses_perform rfl) fun offered => ?_
  cases offered with
  | none => trivial
  | some offered => exact Program.uses_bind (Program.uses_perform rfl) fun _ => trivial

theorem uses_renew (sessionId : String) (lease : ExecutionJobLease) :
    (renew o sessionId lease).Uses (Writes leasing) :=
  Program.uses_bind (uses_requireOwner rfl sessionId lease.runId) fun _ =>
    RunOwnershipService.uses_renew _ _

theorem uses_complete (sessionId : String) (lease : ExecutionJobLease)
    (completion : ExecutionCompletion) :
    (complete o sessionId lease completion).Uses (Writes settling) := by
  refine Program.uses_bind (uses_requireOwner rfl sessionId lease.runId) fun _ => ?_
  dsimp only
  split
  · exact Program.uses_bind (RunOwnershipService.uses_completeStored _ _ _) fun d =>
      uses_invokeCompletionSink rfl _ _ d
  · exact Program.uses_bind (RunOwnershipService.uses_complete _ _ _) fun d =>
      uses_invokeCompletionSink rfl _ _ d

end CoreRunnerProtocolApplication

end Qualigence.Core
