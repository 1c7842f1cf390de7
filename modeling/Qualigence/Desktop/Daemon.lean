import Qualigence.Desktop.Digest

/-! # The companion daemon

The daemon answers the requests of its clients one after another. An execution request is
handed to a thread, which consumes the permit and then writes the action to the worker. Other
requests are answered between the steps of a thread. The readings of the wall clock and of the
monotonic clock are milliseconds of one time line.
-/

namespace Qualigence.Desktop

open Protocol (utf8Bytes)

structure LocalPermitRequest where
  approvalId : String
  sessionId : String
  runId : String
  action : ResolvedDesktopAction
  authorization : LocalPermitAuthorization
  safeSummary : String
  expiresAt : String
  deriving DecidableEq

structure LocalExecutionPermit where
  permitToken : String
  nonceBase64 : String
  sessionId : String
  runId : String
  actionId : String
  actionDigestSha256 : String
  graphId : String
  decisionId : String
  policyId : String
  risk : Risk
  issuedAt : String
  expiresAt : String
  valueBinding : Option DesktopValueBinding
  deriving DecidableEq

structure DesktopPlaintextValue where
  valueRef : String
  valueSha256 : String
  valueByteLength : ℕ
  plaintext : String
  deriving DecidableEq

structure ActionExecutePayload where
  sessionId : String
  action : ResolvedDesktopAction
  permit : LocalExecutionPermit
  value : Option DesktopPlaintextValue
  deadlineMs : ℕ
  deriving DecidableEq

inductive UiaError where
  | targetUnresponsive
  | actionOutcomeUnknown
  | emergencyStopped
  | workerUnavailable
  | protocolCorruption
  | reported (code : String)
  deriving DecidableEq

def UiaError.code : UiaError → String
  | targetUnresponsive => "TargetUnresponsive"
  | actionOutcomeUnknown => "ActionOutcomeUnknown"
  | emergencyStopped => "EmergencyStopped"
  | workerUnavailable => "CompanionUnavailable"
  | protocolCorruption => "UiaElementStale"
  | reported code => code

inductive DesktopActionError where
  | permit (error : PermitError)
  | bindingMismatch
  | valueTooLarge
  | requestDeadlineExpired
  | requestCancelled
  | uia (error : UiaError)
  deriving DecidableEq

def minDeadlineMs : ℕ := 1
def maxDeadlineMs : ℕ := 600000
def maxPlaintextValueBytes : ℕ := 64 * 1024

/-- `validate_deadline_ms`. -/
def checkedDeadline (deadlineMs : ℕ) : Option ℕ :=
  if minDeadlineMs ≤ deadlineMs ∧ deadlineMs ≤ maxDeadlineMs then some deadlineMs else none

/-! ## Execution requests -/

section Request

variable (E : Environment)

/-- The binding that an execution request presents. -/
def LocalExecutionPermit.binding (permit : LocalExecutionPermit) : PermitBinding where
  sessionId := permit.sessionId
  runId := permit.runId
  actionId := permit.actionId
  actionDigestSha256 := permit.actionDigestSha256
  graphId := permit.graphId
  risk := permit.risk

def permitMatchesAction (sessionId : String) (action : ResolvedDesktopAction)
    (permit : LocalExecutionPermit) (binding : PermitBinding) : Bool :=
  decide (permit.sessionId = sessionId)
    && decide (permit.sessionId = binding.sessionId)
    && decide (permit.runId = binding.runId)
    && decide (permit.actionId = binding.actionId)
    && decide (permit.actionId = action.actionId)
    && decide (permit.actionDigestSha256 = binding.actionDigestSha256)
    && decide (permit.actionDigestSha256 =
      desktopActionDigestSha256 E permit.sessionId permit.runId action permit.decisionId
        permit.policyId permit.risk permit.expiresAt permit.nonceBase64 permit.valueBinding)
    && decide (permit.graphId = binding.graphId)
    && decide (permit.graphId = action.graphId)
    && decide (permit.risk = binding.risk)
    && authorizationRiskCoversAction action permit.risk
    && decide (permit.permitToken ≠ "")
    && decide (permit.nonceBase64 ≠ "")
    && decide (permit.decisionId ≠ "")
    && decide (permit.policyId ≠ "")
    && decide (permit.issuedAt ≠ "")
    && decide (permit.expiresAt ≠ "")

def valueIsWithinPublicBound (permit : LocalExecutionPermit)
    (value : Option DesktopPlaintextValue) : Bool :=
  (match permit.valueBinding with
    | none => true
    | some binding => decide (binding.valueByteLength ≤ maxPlaintextValueBytes)) &&
  match value with
    | none => true
    | some value => decide (value.valueByteLength ≤ maxPlaintextValueBytes ∧
        (utf8Bytes value.plaintext).length ≤ maxPlaintextValueBytes)

def valueMatchesPermit (action : ResolvedDesktopAction) (permit : LocalExecutionPermit)
    (value : Option DesktopPlaintextValue) : Bool :=
  let actionValueRef := match action.kind with
    | .input valueRef => some valueRef
    | .select valueRef => some valueRef
    | _ => none
  match actionValueRef, permit.valueBinding, value with
  | none, none, none => true
  | some actionRef, some binding, some value =>
    decide (actionRef = binding.valueRef ∧ value.valueRef = binding.valueRef ∧
      value.valueSha256 = binding.valueSha256 ∧
      value.valueByteLength = binding.valueByteLength ∧
      value.valueByteLength = (utf8Bytes value.plaintext).length ∧
      E.sha256Hex (utf8Bytes value.plaintext) = binding.valueSha256)
  | _, _, _ => false

variable {α : Type}

/-- Validate an execution request again and consume its permit. -/
def prepareDesktopActionRequest (c : Companion α) (n : ℕ) (payload : ActionExecutePayload) :
    Except DesktopActionError Unit × Companion α :=
  let permit := payload.permit
  let binding := permit.binding
  if !valueIsWithinPublicBound permit payload.value then (.error .valueTooLarge, c)
  else if !permitMatchesAction E payload.sessionId payload.action permit binding
      || !valueMatchesPermit E payload.action permit payload.value then (.error .bindingMismatch, c)
  else if !actionPatternIsSupported payload.action then
    (.error (.uia (.reported "UiaPatternUnsupported")), c)
  else match c.authorizeAction E n permit.permitToken binding with
    | (.ok (), c) => (.ok (), c)
    | (.error error, c) => (.error (.permit error), c)

def cancellationErrorBeforePermit (c : Companion α) : DesktopActionError :=
  match c.state with
  | .active => .requestCancelled
  | .paused => .uia (.reported "SessionPaused")
  | .emergencyStopped => .uia .emergencyStopped

end Request

/-! ## State -/

inductive RequestStage where
  | received
  | prepared
  | dispatched
  | failed (error : DesktopActionError)
  deriving DecidableEq

/-- An execution request that a thread serves. -/
structure ActionRequest where
  payload : ActionExecutePayload
  deadline : ℕ
  epoch : ℕ
  stage : RequestStage
  deriving DecidableEq

/-- A permit that was answered, with the authorization it was requested under. -/
structure PermitAnswer where
  permit : IssuedPermit
  authorization : LocalPermitAuthorization
  deriving DecidableEq

/-- An action that was written to the worker. -/
structure Dispatch where
  payload : ActionExecutePayload
  atMs : ℕ
  deriving DecidableEq

structure DaemonState (α : Type) where
  /-- The application sessions that are launched. -/
  sessions : String → Bool
  /-- The companions that were made, by their sessions. -/
  companions : String → Option (Companion α)
  /-- The number of times the worker was cancelled. -/
  cancellations : ℕ
  actionThreads : List ActionRequest
  /-- The permits that the daemon has answered. -/
  answers : List PermitAnswer
  /-- The actions that the daemon has written to the worker. -/
  dispatches : List Dispatch

inductive DaemonReply where
  | error (code message : String)
  | issued (answer : PermitAnswer)
  | rejected (decision : Decision)
  | done
  deriving DecidableEq

/-- A request of a client, or a step of the thread that serves an execution request. `verified`
tells whether the process host still vouches for the session. -/
inductive DaemonOp where
  | appLaunch (sessionId : String)
  | appShutdown (sessionId : String)
  | sessionPause
  | sessionResume
  | sessionStop
  | sessionClose
  | permitRequest (request : LocalPermitRequest)
  | actionExecute (payload : ActionExecutePayload) (verified : Bool)
  | prepare (thread : ℕ)
  | dispatch (thread : ℕ)
  deriving DecidableEq

namespace DaemonState

variable {α : Type}

def start : DaemonState α where
  sessions _ := false
  companions _ := none
  cancellations := 0
  actionThreads := []
  answers := []
  dispatches := []

def setCompanion (d : DaemonState α) (sessionId : String) (c : Companion α) : DaemonState α :=
  { d with companions := fun id => if id = sessionId then some c else d.companions id }

@[simp] theorem companions_setCompanion (d : DaemonState α) (sessionId id : String)
    (c : Companion α) : (d.setCompanion sessionId c).companions id =
      if id = sessionId then some c else d.companions id := rfl

/-- A companion of a launched session; one that is shut down keeps its latches. -/
def mapCompanions (d : DaemonState α) (f : Companion α → Companion α) : DaemonState α :=
  { d with companions := fun id =>
      if d.sessions id then (d.companions id).map f else d.companions id }

def cancelWorkerForStop (d : DaemonState α) : DaemonState α :=
  { d with cancellations := d.cancellations + 1 }

def setThread (d : DaemonState α) (thread : ℕ) (request : ActionRequest) (stage : RequestStage) :
    DaemonState α :=
  { d with actionThreads := d.actionThreads.set thread { request with stage } }

variable (E : Environment) (A : Approver α) (approver : α) (permitTtlMs : ℕ)

/-- The companion of the session, made when there is none. -/
def companionFor (d : DaemonState α) (sessionId runId : String) : Companion α :=
  (d.companions sessionId).getD (.new sessionId ⟨runId, .new, approver⟩ (.new permitTtlMs))

def permitRequest (d : DaemonState α) (n : ℕ) (request : LocalPermitRequest) :
    DaemonReply × DaemonState α :=
  let authorization := request.authorization
  if !d.sessions request.sessionId then (.error "ApplicationError" "SessionNotFound", d)
  else if !authorizationRiskCoversAction request.action authorization.risk then
    (.error "PolicyDenied" "RiskMismatch", d)
  else
    let expectedDigest := desktopActionDigestSha256 E request.sessionId request.runId
      request.action authorization.decisionId authorization.policyId authorization.risk
      authorization.expiresAt authorization.nonceBase64 authorization.valueBinding
    if expectedDigest ≠ authorization.actionDigestSha256 then
      (.error "PolicyDenied" "ActionDigestMismatch", d)
    else
      let binding : PermitBinding := {
        sessionId := request.sessionId
        runId := request.runId
        actionId := request.action.actionId
        actionDigestSha256 := authorization.actionDigestSha256
        graphId := request.action.graphId
        risk := authorization.risk }
      let approval : ApprovalRequest := {
        approvalId := request.approvalId
        sessionId := request.sessionId
        runId := request.runId
        actionId := request.action.actionId
        risk := authorization.risk
        safeSummary := request.safeSummary }
      let companion := d.companionFor approver permitTtlMs request.sessionId request.runId
      match companion.requestPermit E A n approval binding with
      | (.issued permit, companion) =>
        let answer : PermitAnswer := { permit, authorization }
        let d := d.setCompanion request.sessionId companion
        (.issued answer, { d with answers := d.answers ++ [answer] })
      | (.rejected decision, companion) =>
        (.rejected decision, d.setCompanion request.sessionId companion)

/-- Hand an execution request to a thread. -/
def actionExecute (d : DaemonState α) (n : ℕ) (payload : ActionExecutePayload)
    (verified : Bool) : DaemonReply × DaemonState α :=
  match checkedDeadline payload.deadlineMs with
  | none => (.error "CompanionProtocolViolation" "InvalidDeadline", d)
  | some deadline =>
    if !d.sessions payload.sessionId then (.error "ApplicationError" "SessionNotFound", d)
    else if !verified then (.error "ApplicationError" "AppLifecycleUnsupported", d)
    else if (d.companions payload.sessionId).isNone then
      (.error "ApplicationError" "SessionNotFound", d)
    else
      let request : ActionRequest := {
        payload
        deadline := E.nowMs n + deadline
        epoch := d.cancellations
        stage := .received }
      (.done, { d with actionThreads := d.actionThreads ++ [request] })

/-- The thread has the worker: consume the permit while the request is live. -/
def prepare (d : DaemonState α) (n thread : ℕ) : DaemonState α :=
  match d.actionThreads[thread]? with
  | none => d
  | some request =>
    match request.stage, d.companions request.payload.sessionId with
    | .received, some companion =>
      if E.nowMs n ≥ request.deadline then
        d.setThread thread request (.failed .requestDeadlineExpired)
      else if d.cancellations ≠ request.epoch then
        d.setThread thread request (.failed (cancellationErrorBeforePermit companion))
      else match prepareDesktopActionRequest E companion n request.payload with
        | (.ok (), companion) =>
          (d.setThread thread request .prepared).setCompanion request.payload.sessionId companion
        | (.error error, companion) =>
          (d.setThread thread request (.failed error)).setCompanion request.payload.sessionId
            companion
    | _, _ => d

/-- Write the action to the worker while the request is live. -/
def dispatch (d : DaemonState α) (n thread : ℕ) : DaemonState α :=
  match d.actionThreads[thread]? with
  | none => d
  | some request =>
    match request.stage with
    | .prepared =>
      if d.cancellations ≠ request.epoch then
        d.setThread thread request (.failed (.uia .emergencyStopped))
      else if E.nowMs n ≥ request.deadline then
        d.setThread thread request (.failed (.uia .actionOutcomeUnknown))
      else
        let d := d.setThread thread request .dispatched
        { d with dispatches := d.dispatches ++ [⟨request.payload, E.nowMs n⟩] }
    | _ => d

def perform (d : DaemonState α) (n : ℕ) : DaemonOp → DaemonReply × DaemonState α
  | .appLaunch sessionId =>
    let companion := d.companionFor approver permitTtlMs sessionId ""
    let d := d.setCompanion sessionId companion
    (.done, { d with sessions := fun id => id = sessionId || d.sessions id })
  | .appShutdown sessionId =>
    (.done, { d with sessions := fun id => id ≠ sessionId && d.sessions id })
  | .sessionPause => (.done, d.mapCompanions .pause)
  | .sessionResume => (.done, d.mapCompanions .resume)
  | .sessionStop => (.done, (d.mapCompanions .emergencyStop).cancelWorkerForStop)
  | .sessionClose => (.done, (d.mapCompanions .emergencyStop).cancelWorkerForStop)
  | .permitRequest request => d.permitRequest E A approver permitTtlMs n request
  | .actionExecute payload verified => d.actionExecute E n payload verified
  | .prepare thread => (.done, d.prepare E n thread)
  | .dispatch thread => (.done, d.dispatch E n thread)

/-- The state after a sequence of operations, from a daemon that was started. -/
def after (ops : List DaemonOp) : DaemonState α :=
  (ops.foldl (fun (s : ℕ × DaemonState α) op =>
    (s.1 + 1, (s.2.perform E A approver permitTtlMs s.1 op).2)) (0, start)).2

end DaemonState

end Qualigence.Desktop
