import Qualigence.Desktop.Daemon
import Qualigence.Foundation.Monitor

/-! # Executing a desktop action

The thread of an execution request waits for the worker supervisor, consumes the permit, and hands
the action to the worker. Between its steps it looks at the deadline and at the cancellation of its
request. `rounds` bounds how often a wait is polled; a thread whose rounds are used up is still
waiting.
-/

namespace Qualigence.Desktop.Execution

open Foundation

/-- How a worker child ended a request without a response. -/
inductive WorkerError where
  | timeout
  | cancelled
  | closed
  | corrupt
  | spawn
  deriving DecidableEq

/-- The outcome of an action as the worker reports it. -/
inductive ActionOutcomeReport where
  | ok
  | failed (errorCode : String)
  deriving DecidableEq

inductive WorkerResponse where
  | captured
  | executed (outcome : ActionOutcomeReport)
  | pong
  | error (message : String)
  deriving DecidableEq

inductive TryLock where
  | acquired
  | wouldBlock
  | poisoned
  deriving DecidableEq

/-- What arrives on the channel of a worker within a polling interval; reading a response fails with
`Closed` or `Corrupt`. -/
inductive Received where
  | response (response : WorkerResponse)
  | closed
  | corrupt
  | timeout
  | disconnected
  deriving DecidableEq

/-- An execution request with the number of its thread, its deadline and the cancellation epoch it
was admitted in. -/
structure ExecutionRequest where
  thread : ℕ
  payload : ActionExecutePayload
  deadline : ℕ
  epoch : ℕ
  deriving DecidableEq

/-- What a thread asks of the cancellation token, the clock, the locks, the companion and the
worker. `prepare` is `prepare_desktop_action_request` under the lock of the companion, and
`companionState` reads the control state under it; a poisoned lock has none. -/
inductive BrokerOp where
  | isCancelled (r : ExecutionRequest)
  | deadlineRemaining (r : ExecutionRequest)
  | tryLockSupervisor
  | unlockSupervisor
  | prepare (r : ExecutionRequest)
  | companionState (r : ExecutionRequest)
  | ensureWorker
  | serializeRequest (r : ExecutionRequest)
  | writeFrame (r : ExecutionRequest)
  | flush
  | receive
  | killWorker
  | recycleWorker

abbrev brokerSignature : Signature where
  Op := BrokerOp
  Reply
    | .isCancelled _ => Bool
    | .deadlineRemaining _ => Bool
    | .tryLockSupervisor => TryLock
    | .unlockSupervisor => Unit
    | .prepare _ => Except DesktopActionError Unit
    | .companionState _ => Option ControlState
    | .ensureWorker => Bool
    | .serializeRequest _ => Bool
    | .writeFrame _ => Bool
    | .flush => Bool
    | .receive => Received
    | .killWorker => Unit
    | .recycleWorker => Unit

/-- The thread has not come to an end. -/
inductive Waiting where
  | waiting

abbrev Broker (α : Type) := Program brokerSignature Waiting α

abbrev perform (op : BrokerOp) : Broker (brokerSignature.Reply op) :=
  Program.perform (S := brokerSignature) op

variable (r : ExecutionRequest)

def lockSupervisorUntil : ℕ → Broker (Except WorkerError Unit)
  | 0 => .throw .waiting
  | rounds + 1 => do
    let cancelled : Bool ← perform (.isCancelled r)
    if cancelled then pure (.error .cancelled) else do
    let live : Bool ← perform (.deadlineRemaining r)
    if !live then pure (.error .timeout) else do
    let lock : TryLock ← perform .tryLockSupervisor
    match lock with
    | .acquired => pure (.ok ())
    | .wouldBlock => lockSupervisorUntil rounds
    | .poisoned => pure (.error .spawn)

/-- The loop of `NativeUiaWorkerHandle::request` after the frame was written. -/
def awaitResponse : ℕ → Broker (Except WorkerError WorkerResponse)
  | 0 => .throw .waiting
  | rounds + 1 => do
    let cancelled : Bool ← perform (.isCancelled r)
    if cancelled then do
      let _ : Unit ← perform .killWorker
      pure (.error .cancelled)
    else do
    let live : Bool ← perform (.deadlineRemaining r)
    if !live then do
      let _ : Unit ← perform .killWorker
      pure (.error .timeout)
    else do
    let received : Received ← perform .receive
    match received with
    | .response response => do
      let cancelled : Bool ← perform (.isCancelled r)
      if cancelled then do
        let _ : Unit ← perform .killWorker
        pure (.error .cancelled)
      else pure (.ok response)
    | .closed => pure (.error .closed)
    | .corrupt => pure (.error .corrupt)
    | .timeout => awaitResponse rounds
    | .disconnected => pure (.error .closed)

variable (rounds : ℕ)

/-- `NativeUiaWorkerHandle::request`. -/
def workerRequest : Broker (Except WorkerError WorkerResponse) := do
  let cancelled : Bool ← perform (.isCancelled r)
  if cancelled then pure (.error .cancelled) else do
  let live : Bool ← perform (.deadlineRemaining r)
  if !live then pure (.error .timeout) else do
  let serialized : Bool ← perform (.serializeRequest r)
  if !serialized then pure (.error .corrupt) else do
  let cancelled : Bool ← perform (.isCancelled r)
  if cancelled then pure (.error .cancelled) else do
  let live : Bool ← perform (.deadlineRemaining r)
  if !live then pure (.error .timeout) else do
  let written : Bool ← perform (.writeFrame r)
  if !written then pure (.error .closed) else do
  let flushed : Bool ← perform .flush
  if !flushed then pure (.error .closed) else
  awaitResponse r rounds

def dispatchUntil : Broker (Except WorkerError WorkerResponse) := do
  let cancelled : Bool ← perform (.isCancelled r)
  if cancelled then pure (.error .cancelled) else do
  let spawned : Bool ← perform .ensureWorker
  if !spawned then pure (.error .spawn) else do
  let cancelled : Bool ← perform (.isCancelled r)
  if cancelled then pure (.error .cancelled) else do
  let live : Bool ← perform (.deadlineRemaining r)
  if !live then pure (.error .timeout) else do
  let answer ← workerRequest r rounds
  match answer with
  | .ok response => pure (.ok response)
  | .error error => do
    let _ : Unit ← perform .recycleWorker
    pure (.error error)

def executeUntil : Broker (Except UiaError ActionOutcomeReport) := do
  let answer ← dispatchUntil r rounds
  match answer with
  | .ok (.executed outcome) => pure (.ok outcome)
  | .ok (.error message) => pure (.error (.reported message))
  | .ok _ => do
    let _ : Unit ← perform .recycleWorker
    pure (.error .protocolCorruption)
  | .error .timeout => pure (.error .actionOutcomeUnknown)
  | .error .cancelled => pure (.error .emergencyStopped)
  | .error .closed => pure (.error .actionOutcomeUnknown)
  | .error .corrupt => pure (.error .actionOutcomeUnknown)
  | .error .spawn => pure (.error .workerUnavailable)

def cancellationErrorBeforePermit : Broker DesktopActionError := do
  let state : Option ControlState ← perform (.companionState r)
  match state with
  | some .active => pure .requestCancelled
  | some .paused => pure (.uia (.reported "SessionPaused"))
  | some .emergencyStopped => pure (.uia .emergencyStopped)
  | none => pure (.uia .workerUnavailable)

/-- What `execute_desktop_action_request_before_deadline` does while it holds the supervisor. -/
def executeLocked : Broker (Except DesktopActionError ActionOutcomeReport) := do
  let cancelled : Bool ← perform (.isCancelled r)
  if cancelled then do
    let error ← cancellationErrorBeforePermit r
    pure (.error error)
  else do
  let live : Bool ← perform (.deadlineRemaining r)
  if !live then pure (.error .requestDeadlineExpired) else do
  let prepared : Except DesktopActionError Unit ← perform (.prepare r)
  match prepared with
  | .error error => pure (.error error)
  | .ok _ => do
    let cancelled : Bool ← perform (.isCancelled r)
    if cancelled then pure (.error (.uia .emergencyStopped)) else do
    let live : Bool ← perform (.deadlineRemaining r)
    if !live then pure (.error (.uia .actionOutcomeUnknown)) else do
    let outcome ← executeUntil r rounds
    match outcome with
    | .error error => pure (.error (.uia error))
    | .ok outcome => do
      let cancelled : Bool ← perform (.isCancelled r)
      if cancelled then pure (.error (.uia .emergencyStopped)) else do
      let state : Option ControlState ← perform (.companionState r)
      match state with
      | none => pure (.error (.uia .workerUnavailable))
      | some .emergencyStopped => pure (.error (.uia .emergencyStopped))
      | some _ => pure (.ok outcome)

def executeDesktopActionRequestBeforeDeadline :
    Broker (Except DesktopActionError ActionOutcomeReport) := do
  let lock ← lockSupervisorUntil r rounds
  match lock with
  | .error .timeout => pure (.error .requestDeadlineExpired)
  | .error .cancelled => do
    let error ← cancellationErrorBeforePermit r
    pure (.error error)
  | .error _ => pure (.error (.uia .workerUnavailable))
  | .ok _ => do
    let result ← executeLocked r rounds
    let _ : Unit ← perform .unlockSupervisor
    pure result

/-! ## The response -/

/-- The response to an execution request: an outcome, or an error with its code and message. -/
inductive ActionExecuteResponse where
  | outcome (report : ActionOutcomeReport)
  | error (code safeMessage : String)
  deriving DecidableEq

def actionErrorMessage : DesktopActionError → String
  | .permit .emergencyStopped => "EmergencyStopped"
  | .permit _ => "LocalPermitInvalid"
  | .bindingMismatch => "LocalPermitBindingMismatch"
  | .valueTooLarge => "PlaintextValueTooLarge"
  | .requestDeadlineExpired => "CompanionRequestTimeout"
  | .requestCancelled => "RequestCancelled"
  | .uia error => error.code

def writeActionExecuteResult :
    Except DesktopActionError ActionOutcomeReport → ActionExecuteResponse
  | .ok outcome => .outcome outcome
  | .error (.uia .actionOutcomeUnknown) => .error "ActionOutcomeUnknown" "ActionOutcomeUnknown"
  | .error (.permit .emergencyStopped) => .outcome (.failed "EmergencyStopped")
  | .error (.uia .emergencyStopped) => .outcome (.failed "EmergencyStopped")
  | .error .requestDeadlineExpired => .error "CompanionRequestTimeout" "CompanionRequestTimeout"
  | .error .requestCancelled => .error "CompanionUnavailable" "RequestCancelled"
  | .error .valueTooLarge => .error "InvalidAction" "PlaintextValueTooLarge"
  | .error error => .error "ApplicationError" (actionErrorMessage error)

end Qualigence.Desktop.Execution
