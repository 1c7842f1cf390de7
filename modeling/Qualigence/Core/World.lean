import Mathlib.Logic.Function.Basic
import Qualigence.Foundation.Program
import Qualigence.Lease.Invariant
import Qualigence.Trace.Store

/-! # The world of the Core services

The services of Core are programs over the operations below: the methods of the stores,
the clock and the generators, the maps the process keeps in memory and the collaborators
it notifies. Every operation is atomic; the asynchronous code between two operations can
be interleaved with other programs. Clocks, generated texts, collaborators and failures
of the stores are arbitrary: an oracle answers them by the number of answers given.
-/

namespace Qualigence.Core

open Foundation Protocol Lease Trace

/-! ## Errors -/

inductive CoreApplicationErrorCode where
  | leaseLost
  | runLost
  | runCompleted
  | leaseActive
  | capabilityMismatch
  | protocolVersionMismatch
  | runnerResumeRejected
  | traceIntegrityViolation
  | artifactUnacknowledged
  | artifactUploadRejected
  | unknownSession
  | unknownOffer
  | unknownRun
  | runIdentityMismatch
  | runOwnershipViolation
  | policyMissing
  deriving DecidableEq

/-- What a service can raise: its own error with the details it carries, an error of a
store that it passes on, the error of a desktop target, a property read of `null`, or the
error of a collaborator. -/
inductive CoreError where
  | application (code : CoreApplicationErrorCode) (message : String)
      (details : List (String × JsValue))
  | store (error : StoreError)
  | storeUnavailable
  | trace (error : TraceStoreError)
  | job (error : JobError)
  | typeError
  | collaborator

/-! ## Sessions, offers and events -/

inductive RunnerAuthorizationScope where
  | local
  | tenant (tenantId : String) (projectIds : List String)
  deriving DecidableEq

structure AuthenticatedRunnerContext where
  runnerId : String
  certificateFingerprint : String
  scope : RunnerAuthorizationScope
  deriving DecidableEq

structure RunnerSessionRecord where
  sessionId : String
  identity : AuthenticatedRunnerContext
  capabilities : RunnerCapabilities
  protocolMajor : ℕ
  deriving DecidableEq

structure PendingOffer where
  offer : ExecutionJobOffer
  owner : PersistedLeaseOwner
  recoveryOfRunId : Option String
  lease : Option ExecutionJobLease
  deriving DecidableEq

/-- An offer as the application remembers it; `ref` is the identity of the object. -/
structure CanonicalOffer where
  ref : ℕ
  canonical : Option String
  sessionId : String
  offer : ExecutionJobOffer
  deriving DecidableEq

structure RunnerControlIntegrityEvent where
  runId : String
  leaseTokenHash : String
  presentedCompletionHash : Option String
  storedCompletionHash : Option String
  observedAt : Timestamp
  deriving DecidableEq

/-! ## Operations -/

inductive CoreOp where
  | now
  | generate
  | grantLease (input : PersistedExecutionLease)
  | renewLease (input : RenewLeaseInput)
  | completeLease (input : CompleteLeaseInput)
  | markLeaseLost (runId : String) (lostAt : Timestamp)
  | lease (runId : String)
  | completion (runId : String)
  | saveSession (record : PersistedRunnerSession)
  | closeSession (sessionId : String) (closedAt : Timestamp)
  | issueResumeToken (tokenHash : String) (binding : ResumeTokenBinding) (expiresAt : Timestamp)
  | rotateResumeToken (input : RotateResumeTokenInput)
  | appendTraceEvent (event : TraceEvent)
  | appendFinding (finding : JsValue) (payloadHash : Option String)
  | acknowledgedArtifactIds (runId : String) (artifactIds : List String)
  | emit (event : RunnerControlIntegrityEvent)
  | recordRun (job : AcceptedExecutionJob)
  | completionSink (completion : ExecutionCompletion)
  | session (sessionId : String)
  | setSession (record : RunnerSessionRecord)
  | deleteSession (sessionId : String)
  | pendingOffer (offerId : String)
  | setPendingOffer (offerId : String) (pending : PendingOffer)
  | offerByJob (jobId : String)
  | offerByRun (runId : String)
  | rememberOffer (jobId runId : String) (canonical : Option String) (sessionId : String)
      (offer : ExecutionJobOffer)

/-- The replies to the operations. -/
@[reducible] def CoreOp.Reply : CoreOp → Type
  | now => ℕ
  | generate => String
  | grantLease _ | renewLease _ | markLeaseLost _ _ => Bool
  | completeLease _ => CompleteLeaseResult
  | lease _ => Option PersistedExecutionLease
  | completion _ => Option ExecutionCompletion
  | rotateResumeToken _ => Option (RotateOutcome × ResumeTokenBinding)
  | appendTraceEvent _ => TraceAppendResult
  | appendFinding _ _ => FindingAppendResult
  | acknowledgedArtifactIds _ _ => List String
  | session _ => Option RunnerSessionRecord
  | pendingOffer _ => Option PendingOffer
  | offerByJob _ | offerByRun _ => Option CanonicalOffer
  | saveSession _ | closeSession _ _ | issueResumeToken _ _ _ | emit _ | recordRun _
  | completionSink _ | setSession _ | deleteSession _ | setPendingOffer _ _
  | rememberOffer _ _ _ _ _ => Unit

abbrev coreSignature : Signature := ⟨CoreOp, CoreOp.Reply⟩

/-- A program of a Core service. -/
abbrev Service (α : Type) := Program coreSignature CoreError α

/-! ## The world -/

/-- A step of a store can fail before or after it took effect. -/
inductive Fault where
  | none
  | before
  | after
  deriving DecidableEq

/-- The answers that no code of Core decides, by the number of answers given before. -/
structure Oracle where
  now : ℕ → ℕ
  generate : ℕ → String
  acknowledged : ℕ → String → List String → List String
  fault : ℕ → Fault
  collaboratorFails : ℕ → Bool

/-- The database and the memory of the process. The log of a collaborator keeps what it
was notified of. -/
structure World (τ : Type) where
  db : RunnerControlDb τ
  trace : TraceDb
  live : String → Option RunnerSessionRecord
  offers : String → Option PendingOffer
  offersByJob : String → Option CanonicalOffer
  offersByRun : String → Option CanonicalOffer
  recordedRuns : List AcceptedExecutionJob
  events : List RunnerControlIntegrityEvent
  draws : ℕ

def World.initial {τ : Type} : World τ where
  db := .initial
  trace := .initial
  live := fun _ => none
  offers := fun _ => none
  offersByJob := fun _ => none
  offersByRun := fun _ => none
  recordedRuns := []
  events := []
  draws := 0

section Handler

variable {τ α : Type} [DecidableEq τ] (P : Platform) (O : Oracle) (scope : τ)

/-- The result of an operation and the world after it. -/
abbrev Outcome (τ α : Type) := Except CoreError α × World τ

def World.tick (w : World τ) : World τ := { w with draws := w.draws + 1 }

/-- A step of the runner control store. -/
def World.onDb (w : World τ) (f : RunnerControlDb τ → StoreResult τ α) : Outcome τ α :=
  let r := f w.db
  match O.fault w.draws with
  | .none => (r.1.mapError .store, { w.tick with db := r.2 })
  | .before => (.error .storeUnavailable, w.tick)
  | .after => (.error .storeUnavailable, { w.tick with db := r.2 })

/-- A step of the trace store. -/
def World.onTrace (w : World τ) (f : TraceDb → TraceResult α) : Outcome τ α :=
  let r := f w.trace
  match O.fault w.draws with
  | .none => (r.1.mapError .trace, { w.tick with trace := r.2 })
  | .before => (.error .storeUnavailable, w.tick)
  | .after => (.error .storeUnavailable, { w.tick with trace := r.2 })

open RunnerControlStore in
/-- How the world answers the operations. -/
def handler : Handler coreSignature CoreError (World τ)
  | .now, w => (.ok (O.now w.draws), w.tick)
  | .generate, w => (.ok (O.generate w.draws), w.tick)
  | .grantLease input, w => w.onDb O (grantLease scope input)
  | .renewLease input, w => w.onDb O (renewLease P scope input)
  | .completeLease input, w => w.onDb O (completeLease P scope input)
  | .markLeaseLost runId lostAt, w => w.onDb O (markLeaseLost scope runId lostAt)
  | .lease runId, w => w.onDb O fun db => (lease P scope runId db, db)
  | .completion runId, w => w.onDb O fun db => (.ok (completion scope runId db), db)
  | .saveSession record, w => w.onDb O (saveSession scope record)
  | .closeSession sessionId closedAt, w => w.onDb O (closeSession scope sessionId closedAt)
  | .issueResumeToken tokenHash binding expiresAt, w =>
    w.onDb O (issueResumeToken scope tokenHash binding expiresAt)
  | .rotateResumeToken input, w => w.onDb O (rotateResumeToken scope input)
  | .appendTraceEvent event, w => w.onTrace O (SqliteTraceStore.appendTraceEvent event)
  | .appendFinding finding payloadHash, w =>
    w.onTrace O (SqliteTraceStore.appendFinding P finding payloadHash
      (toISOString (O.now w.draws)))
  | .acknowledgedArtifactIds runId ids, w => (.ok (O.acknowledged w.draws runId ids), w.tick)
  | .emit event, w => (.ok (), { w with events := w.events ++ [event] })
  | .recordRun job, w =>
    (if O.collaboratorFails w.draws then .error .collaborator else .ok (),
      { w.tick with recordedRuns := w.recordedRuns ++ [job] })
  | .completionSink _, w =>
    (if O.collaboratorFails w.draws then .error .collaborator else .ok (), w.tick)
  | .session sessionId, w => (.ok (w.live sessionId), w)
  | .setSession record, w =>
    (.ok (), { w with live := Function.update w.live record.sessionId (some record) })
  | .deleteSession sessionId, w =>
    (.ok (), { w with live := Function.update w.live sessionId none })
  | .pendingOffer offerId, w => (.ok (w.offers offerId), w)
  | .setPendingOffer offerId pending, w =>
    (.ok (), { w with offers := Function.update w.offers offerId (some pending) })
  | .offerByJob jobId, w => (.ok (w.offersByJob jobId), w)
  | .offerByRun runId, w => (.ok (w.offersByRun runId), w)
  | .rememberOffer jobId runId canonical sessionId offer, w =>
    let record : CanonicalOffer := ⟨w.draws, canonical, sessionId, offer⟩
    (.ok (), { w.tick with
      offersByJob := Function.update w.offersByJob jobId (some record)
      offersByRun := Function.update w.offersByRun runId (some record) })

end Handler

/-! ## What an operation does to a run -/

/-- The lease call an operation is. -/
def CoreOp.leaseCall : CoreOp → Option LeaseCall
  | .grantLease input => some (.grantLease input)
  | .renewLease input => some (.renewLease input)
  | .completeLease input => some (.completeLease input)
  | .markLeaseLost runId lostAt => some (.markLeaseLost runId lostAt)
  | _ => none

section RunStep

variable {τ α : Type} [DecidableEq τ] {P : Platform} {O : Oracle} {scope : τ} {w : World τ}
  {k : τ × String}

omit [DecidableEq τ] in
/-- A step of the store takes effect as a whole or not at all. -/
theorem onDb_db (f : RunnerControlDb τ → StoreResult τ α) :
    (w.onDb O f).2.db = w.db ∨ (w.onDb O f).2.db = (f w.db).2 := by
  unfold World.onDb
  cases O.fault w.draws with
  | none => exact .inr rfl
  | before => exact .inl rfl
  | after => exact .inr rfl

omit [DecidableEq τ] in
theorem onTrace_db (f : TraceDb → TraceResult α) : (w.onTrace O f).2.db = w.db := by
  unfold World.onTrace
  cases O.fault w.draws <;> rfl

theorem runStep_onDb {call : LeaseCall} {f : RunnerControlDb τ → StoreResult τ α}
    (h : RunStep scope k call (w.db.run k) ((f w.db).2.run k)) :
    RunStep scope k call (w.db.run k) ((w.onDb O f).2.db.run k) := by
  rcases onDb_db (O := O) (w := w) f with he | he
  · rw [he]
    exact .same
  · rw [he]
    exact h

theorem run_onDb {f : RunnerControlDb τ → StoreResult τ α}
    (h : (f w.db).2.run k = w.db.run k) : (w.onDb O f).2.db.run k = w.db.run k := by
  rcases onDb_db (O := O) (w := w) f with he | he
  · rw [he]
  · rw [he, h]

/-- An operation that is a lease call makes a step of that call. -/
theorem runStep_handler {op : CoreOp} {call : LeaseCall} (hc : op.leaseCall = some call) :
    RunStep scope k call (w.db.run k) ((handler P O scope op w).2.db.run k) := by
  cases op with
  | grantLease input =>
    cases hc
    exact runStep_onDb (runStep_grantLease scope w.db k input)
  | renewLease input =>
    cases hc
    exact runStep_onDb (runStep_renewLease P scope w.db k input)
  | completeLease input =>
    cases hc
    exact runStep_onDb (runStep_completeLease P scope w.db k input)
  | markLeaseLost runId lostAt =>
    cases hc
    exact runStep_onDb (runStep_markLeaseLost scope w.db k runId lostAt)
  | _ => cases hc

/-- No other operation touches a run. -/
theorem run_handler {op : CoreOp} (hc : op.leaseCall = none) :
    (handler P O scope op w).2.db.run k = w.db.run k := by
  cases op with
  | grantLease input => cases hc
  | renewLease input => cases hc
  | completeLease input => cases hc
  | markLeaseLost runId lostAt => cases hc
  | lease runId => exact run_onDb rfl
  | completion runId => exact run_onDb rfl
  | saveSession record =>
    refine run_onDb ?_
    unfold RunnerControlStore.saveSession
    cases w.db.sessions.insert (sessionValues scope record) <;> rfl
  | closeSession sessionId closedAt => exact run_onDb rfl
  | issueResumeToken tokenHash binding expiresAt =>
    refine run_onDb ?_
    unfold RunnerControlStore.issueResumeToken
    split <;> rfl
  | rotateResumeToken input =>
    refine run_onDb ?_
    unfold RunnerControlStore.rotateResumeToken
    repeat' split
    all_goals rfl
  | appendTraceEvent event => exact congrArg (·.run k) (onTrace_db _)
  | appendFinding finding payloadHash => exact congrArg (·.run k) (onTrace_db _)
  | _ => rfl

end RunStep

/-! ## Performing operations -/

def perform (op : CoreOp) : Service op.Reply := Program.perform (S := coreSignature) op

section Perform

variable {τ : Type} [DecidableEq τ] {P : Platform} {O : Oracle} {scope : τ} {w : World τ}
  (op : CoreOp)

theorem ends_perform {Q : Except CoreError op.Reply → World τ → Prop}
    (hq : Q (handler P O scope op w).1 (handler P O scope op w).2) :
    Program.Ends (handler P O scope) Q (perform op) w :=
  Program.ends_perform hq

theorem assured_perform {D : Program.Discipline (handler P O scope)}
    {ok : World τ → CoreOp → Prop} {post : World τ → op.Reply → Prop} (hop : D.permitted w op)
    (hr : ∀ t r, D.later w t → D.inv t → ok t op → (handler P O scope op t).1 = .ok r →
      post (handler P O scope op t).2 r) : Program.Assured D ok post (perform op) w :=
  Program.assured_perform hop hr

end Perform

def now : Service ℕ := perform .now
def generate : Service String := perform .generate

namespace Store

def grantLease (input : PersistedExecutionLease) : Service Bool := perform (.grantLease input)

def renewLease (input : RenewLeaseInput) : Service Bool := perform (.renewLease input)

def completeLease (input : CompleteLeaseInput) : Service CompleteLeaseResult :=
  perform (.completeLease input)

def markLeaseLost (runId : String) (lostAt : Timestamp) : Service Bool :=
  perform (.markLeaseLost runId lostAt)

def lease (runId : String) : Service (Option PersistedExecutionLease) := perform (.lease runId)

def completion (runId : String) : Service (Option ExecutionCompletion) :=
  perform (.completion runId)

def rotateResumeToken (input : RotateResumeTokenInput) :
    Service (Option (RotateOutcome × ResumeTokenBinding)) :=
  perform (.rotateResumeToken input)

def appendTraceEvent (event : TraceEvent) : Service TraceAppendResult :=
  perform (.appendTraceEvent event)

def appendFinding (finding : JsValue) (payloadHash : Option String) :
    Service FindingAppendResult :=
  perform (.appendFinding finding payloadHash)

def acknowledgedArtifactIds (runId : String) (artifactIds : List String) :
    Service (List String) :=
  perform (.acknowledgedArtifactIds runId artifactIds)

end Store

namespace Memory

def session (sessionId : String) : Service (Option RunnerSessionRecord) :=
  perform (.session sessionId)

def pendingOffer (offerId : String) : Service (Option PendingOffer) :=
  perform (.pendingOffer offerId)

def offerByJob (jobId : String) : Service (Option CanonicalOffer) := perform (.offerByJob jobId)

def offerByRun (runId : String) : Service (Option CanonicalOffer) := perform (.offerByRun runId)

end Memory

/-- `new Date(this.now()).toISOString()`. -/
def nowIso : Service Timestamp := do return toISOString (← now)

/-- Raise a `CoreApplicationError`. -/
def fail {α : Type} (code : CoreApplicationErrorCode) (message : String)
    (details : List (String × JsValue)) : Service α :=
  Program.throw (.application code message details)

/-- The details most errors carry. -/
def forRun (runId : String) : List (String × JsValue) := [("runId", .str runId)]

end Qualigence.Core
