import Mathlib.Algebra.Group.Nat.Defs
import Qualigence.Protocol.JsonParse

/-! # Responses of the Companion

The envelope that the Companion answers a request with, and its validation: the protocol, the request
that is answered, the type of the response, and either a payload of that type or a stable error.
-/

namespace Qualigence.Desktop.Companion

open Protocol

/-! ## The contract -/

inductive CompanionRequestType where
  | handshakeBegin
  | handshakeProve
  | sessionShow
  | sessionPause
  | sessionResume
  | sessionStop
  | sessionClose
  | companionProbe
  | appLaunch
  | appReset
  | appShutdown
  | uiaCapture
  | permitRequest
  | actionExecute
  deriving DecidableEq

inductive CompanionResponseType where
  | handshakeChallenge
  | handshakeAccepted
  | sessionShow
  | sessionPause
  | sessionResume
  | sessionStop
  | sessionClose
  | companionProbe
  | appLaunch
  | appReset
  | appShutdown
  | uiaCapture
  | permitRequest
  | actionExecute
  deriving DecidableEq

def CompanionResponseType.text : CompanionResponseType → String
  | .handshakeChallenge => "handshake.challenge"
  | .handshakeAccepted => "handshake.accepted"
  | .sessionShow => "session.show"
  | .sessionPause => "session.pause"
  | .sessionResume => "session.resume"
  | .sessionStop => "session.stop"
  | .sessionClose => "session.close"
  | .companionProbe => "companion.probe"
  | .appLaunch => "app.launch"
  | .appReset => "app.reset"
  | .appShutdown => "app.shutdown"
  | .uiaCapture => "uia.capture"
  | .permitRequest => "permit.request"
  | .actionExecute => "action.execute"

def companionResponseTypes : List CompanionResponseType :=
  [.handshakeChallenge, .handshakeAccepted, .sessionShow, .sessionPause, .sessionResume,
    .sessionStop, .sessionClose, .companionProbe, .appLaunch, .appReset, .appShutdown, .uiaCapture,
    .permitRequest, .actionExecute]

def expectedResponseTypeForRequest : CompanionRequestType → CompanionResponseType
  | .handshakeBegin => .handshakeChallenge
  | .handshakeProve => .handshakeAccepted
  | .sessionShow => .sessionShow
  | .sessionPause => .sessionPause
  | .sessionResume => .sessionResume
  | .sessionStop => .sessionStop
  | .sessionClose => .sessionClose
  | .companionProbe => .companionProbe
  | .appLaunch => .appLaunch
  | .appReset => .appReset
  | .appShutdown => .appShutdown
  | .uiaCapture => .uiaCapture
  | .permitRequest => .permitRequest
  | .actionExecute => .actionExecute

inductive CompanionStableErrorCode where
  | companionUnavailable
  | companionIdentityRejected
  | companionUnauthenticated
  | companionProtocolViolation
  | companionBackpressure
  | companionRequestTimeout
  | companionCorrelationError
  | companionMessageTooLarge
  | policyDenied
  | capabilityMismatch
  | unsupportedRequest
  | applicationError
  | actionOutcomeUnknown
  deriving DecidableEq

def CompanionStableErrorCode.text : CompanionStableErrorCode → String
  | .companionUnavailable => "CompanionUnavailable"
  | .companionIdentityRejected => "CompanionIdentityRejected"
  | .companionUnauthenticated => "CompanionUnauthenticated"
  | .companionProtocolViolation => "CompanionProtocolViolation"
  | .companionBackpressure => "CompanionBackpressure"
  | .companionRequestTimeout => "CompanionRequestTimeout"
  | .companionCorrelationError => "CompanionCorrelationError"
  | .companionMessageTooLarge => "CompanionMessageTooLarge"
  | .policyDenied => "PolicyDenied"
  | .capabilityMismatch => "CapabilityMismatch"
  | .unsupportedRequest => "UnsupportedRequest"
  | .applicationError => "ApplicationError"
  | .actionOutcomeUnknown => "ActionOutcomeUnknown"

def stableErrorCodes : List CompanionStableErrorCode :=
  [.companionUnavailable, .companionIdentityRejected, .companionUnauthenticated,
    .companionProtocolViolation, .companionBackpressure, .companionRequestTimeout,
    .companionCorrelationError, .companionMessageTooLarge, .policyDenied, .capabilityMismatch,
    .unsupportedRequest, .applicationError, .actionOutcomeUnknown]

structure CompanionStableError where
  code : CompanionStableErrorCode
  safeMessage : String
  deriving DecidableEq

inductive LocalActionOutcomeReport where
  | ok
  | failed (errorCode : String)
  deriving DecidableEq

structure AppSession where
  sessionId : String
  processId : ℤ
  processCreationTime : String
  processGroupId : String
  rootWindowHandle : String
  startedAt : String
  deriving DecidableEq

inductive CompanionResponsePayload where
  | challenge (challengeId companionInstanceId nonceBase64 : String)
  | accepted (companionInstanceId runnerId : String) (certificateSha256Fingerprint : Option String)
      (acceptedAt : String)
  | session (runId state changedAt : String)
  | probe (checkedAt : String)
  | appSession (session : AppSession)
  | lifecycle (sessionId completedAt : String)
  | uiaSource (source : JsValue)
  | decision (decision : JsValue)
  | outcome (report : LocalActionOutcomeReport)
  deriving DecidableEq

inductive CompanionResponseBody where
  | ok (payload : CompanionResponsePayload)
  | error (error : CompanionStableError)
  deriving DecidableEq

structure CompanionResponse where
  requestId : String
  type : CompanionResponseType
  body : CompanionResponseBody
  deriving DecidableEq

/-! ## Limits -/

def maxFrameBytes : ℕ := 2 ^ 20
def maxBufferedBytes : ℕ := 2 ^ 20
def maxInFlightRequests : ℕ := 32
def maxRequestIdLength : ℕ := 128
def maxRunnerIdLength : ℕ := 200
def maxChallengeIdLength : ℕ := 128
def maxCompanionInstanceIdLength : ℕ := 200
def maxIdLength : ℕ := 200
def maxDigestLength : ℕ := 64
def maxNonceLength : ℕ := 512
def maxErrorMessageLength : ℕ := 512
def minDeadlineMs : ℕ := 1
def maxDeadlineMs : ℕ := 600000

/-! ## Errors -/

inductive CompanionIpcErrorCode where
  | companionMessageTooLarge
  | invalidRequestShape
  | unknownRequestType
  | invalidResponseShape
  | unknownResponseType
  | invalidHandshake
  | invalidCertificateProof
  | missingDeadline
  | invalidDeadline
  | invalidAction
  | localPermitInvalid
  | localAuthorizationInvalid
  | invalidApprovalDecision
  | invalidActionOutcome
  | invalidCorrelation
  deriving DecidableEq

structure CompanionIpcError where
  code : CompanionIpcErrorCode
  message : String
  deriving DecidableEq

/-- What validation throws: an error of the contract, or another one. -/
inductive IpcThrown where
  | ipc (error : CompanionIpcError)
  | other (reason : String)
  deriving DecidableEq

abbrev Check (α : Type) := Except IpcThrown α

def refuse {α : Type} (code : CompanionIpcErrorCode) (message : String) : Check α :=
  .error (.ipc ⟨code, message⟩)

/-! ## Fields -/

def str (value : JsValue) (code : CompanionIpcErrorCode) (field : String) (maxLength : ℕ) :
    Check String :=
  match value with
  | .str s =>
    if jsLength s = 0 then refuse code (field ++ " must be a non-empty string")
    else if maxLength < jsLength s then
      refuse code (field ++ " exceeds " ++ toString maxLength ++ " characters")
    else .ok s
  | _ => refuse code (field ++ " must be a non-empty string")

def optionalStr (value : JsValue) (code : CompanionIpcErrorCode) (field : String)
    (maxLength : ℕ) : Check (Option String) :=
  match value with
  | .undefined => .ok none
  | value => (str value code field maxLength).map some

def int (value : JsValue) (code : CompanionIpcErrorCode) (field : String) : Check ℤ :=
  match value with
  | .int n => .ok n
  | _ => refuse code (field ++ " must be an integer")

def exactKeys (raw : List (String × JsValue)) (allowed : List String)
    (code : CompanionIpcErrorCode) (label : String) : Check Unit :=
  match raw.find? fun field => field.1 ∉ allowed with
  | some (key, _) => refuse code (label ++ "." ++ key ++ " is not a known field")
  | none => .ok ()

def requireRecord (value : JsValue) (code : CompanionIpcErrorCode) (field : String) :
    Check (List (String × JsValue)) :=
  match value with
  | .obj fields => .ok fields
  | _ => refuse code (field ++ " must be an object")

/-! ## Payloads -/

/-- The parts of the validation that are not followed here: the capture of a window, the decision on
a permit, and how a value is converted to a text. -/
structure ResponseParsers where
  parseCompanionUiaSource : JsValue → Check JsValue
  parseCompanionDecision : JsValue → Check JsValue
  toText : JsValue → String

def parseAppSession (value : JsValue) : Check AppSession := do
  let raw ← requireRecord value .invalidResponseShape "app session"
  exactKeys raw ["sessionId", "processId", "processCreationTime", "processGroupId",
    "rootWindowHandle", "startedAt"] .invalidResponseShape "app session"
  let sessionId ← str (JsValue.field "sessionId" raw) .invalidResponseShape "session.sessionId"
    maxIdLength
  let processId ← int (JsValue.field "processId" raw) .invalidResponseShape "session.processId"
  let processCreationTime ← str (JsValue.field "processCreationTime" raw) .invalidResponseShape
    "session.processCreationTime" 64
  let processGroupId ← str (JsValue.field "processGroupId" raw) .invalidResponseShape
    "session.processGroupId" maxIdLength
  let rootWindowHandle ← str (JsValue.field "rootWindowHandle" raw) .invalidResponseShape
    "session.rootWindowHandle" maxIdLength
  let startedAt ← str (JsValue.field "startedAt" raw) .invalidResponseShape "session.startedAt" 64
  return ⟨sessionId, processId, processCreationTime, processGroupId, rootWindowHandle, startedAt⟩

def parseSessionPayload (value : JsValue) (expected : String) : Check CompanionResponsePayload := do
  let raw ← requireRecord value .invalidResponseShape "session response"
  exactKeys raw ["runId", "state", "changedAt"] .invalidResponseShape "session response"
  if JsValue.field "state" raw ≠ .str expected then
    refuse .invalidResponseShape ("session state must be " ++ expected)
  let runId ← str (JsValue.field "runId" raw) .invalidResponseShape "session.runId" maxIdLength
  let changedAt ← str (JsValue.field "changedAt" raw) .invalidResponseShape "session.changedAt" 64
  return .session runId expected changedAt

def parseLifecycleDonePayload (value : JsValue) : Check CompanionResponsePayload := do
  let raw ← requireRecord value .invalidResponseShape "lifecycle response"
  exactKeys raw ["sessionId", "completedAt"] .invalidResponseShape "lifecycle response"
  let sessionId ← str (JsValue.field "sessionId" raw) .invalidResponseShape "lifecycle.sessionId"
    maxIdLength
  let completedAt ← str (JsValue.field "completedAt" raw) .invalidResponseShape
    "lifecycle.completedAt" 64
  return .lifecycle sessionId completedAt

def parseCompanionCapabilityProbeRequest (value : JsValue) : Check Unit := do
  let raw ← requireRecord value .invalidRequestShape "companion.probe payload"
  exactKeys raw ["targetAdapter", "observationExtension"] .invalidRequestShape
    "companion.probe.payload"
  if JsValue.field "targetAdapter" raw ≠ .str "desktop-windows-uia" then
    refuse .invalidRequestShape "companion.probe targetAdapter is not supported"
  if JsValue.field "observationExtension" raw ≠ .str "uia/v1" then
    refuse .invalidRequestShape "companion.probe observationExtension is not supported"

def parseCompanionCapabilityProbeResponse (value : JsValue) : Check CompanionResponsePayload := do
  let raw ← requireRecord value .invalidResponseShape "companion.probe response"
  exactKeys raw ["ready", "protocolMajor", "targetAdapter", "observationExtension", "checkedAt"]
    .invalidResponseShape "companion.probe.response"
  if JsValue.field "ready" raw ≠ .bool true then
    refuse .invalidResponseShape "companion.probe ready must be true"
  if JsValue.field "protocolMajor" raw ≠ .int 1 then
    refuse .invalidResponseShape "companion.probe protocolMajor must be 1"
  parseCompanionCapabilityProbeRequest (.obj [
    ("targetAdapter", JsValue.field "targetAdapter" raw),
    ("observationExtension", JsValue.field "observationExtension" raw)])
  let checkedAt ← str (JsValue.field "checkedAt" raw) .invalidResponseShape
    "companion.probe.checkedAt" 64
  return .probe checkedAt

def parseLocalActionOutcomeReport (value : JsValue) : Check LocalActionOutcomeReport := do
  let raw ← requireRecord value .invalidActionOutcome "action outcome"
  match JsValue.field "status" raw with
  | .str "ok" =>
    exactKeys raw ["status"] .invalidActionOutcome "action outcome"
    return .ok
  | .str "failed" =>
    exactKeys raw ["status", "errorCode"] .invalidActionOutcome "action outcome"
    let errorCode ← str (JsValue.field "errorCode" raw) .invalidActionOutcome
      "action outcome.errorCode" maxIdLength
    return .failed errorCode
  | _ => refuse .invalidActionOutcome "action outcome.status is invalid"

def parseHandshakeChallenge (payload : JsValue) : Check CompanionResponsePayload := do
  let raw ← requireRecord payload .invalidHandshake "handshake challenge"
  exactKeys raw ["challengeId", "companionInstanceId", "nonceBase64"] .invalidHandshake
    "handshake challenge"
  let challengeId ← str (JsValue.field "challengeId" raw) .invalidHandshake "challengeId"
    maxChallengeIdLength
  let companionInstanceId ← str (JsValue.field "companionInstanceId" raw) .invalidHandshake
    "companionInstanceId" maxCompanionInstanceIdLength
  let nonceBase64 ← str (JsValue.field "nonceBase64" raw) .invalidHandshake "nonceBase64"
    maxNonceLength
  return .challenge challengeId companionInstanceId nonceBase64

def parseHandshakeAccepted (payload : JsValue) : Check CompanionResponsePayload := do
  let raw ← requireRecord payload .invalidHandshake "handshake accepted"
  exactKeys raw ["companionInstanceId", "runnerId", "certificateSha256Fingerprint", "acceptedAt"]
    .invalidHandshake "handshake accepted"
  let fingerprint ← optionalStr (JsValue.field "certificateSha256Fingerprint" raw)
    .invalidCertificateProof "certificateSha256Fingerprint" maxDigestLength
  let companionInstanceId ← str (JsValue.field "companionInstanceId" raw) .invalidHandshake
    "companionInstanceId" maxCompanionInstanceIdLength
  let runnerId ← str (JsValue.field "runnerId" raw) .invalidHandshake "runnerId" maxRunnerIdLength
  let acceptedAt ← str (JsValue.field "acceptedAt" raw) .invalidHandshake "acceptedAt" 64
  return .accepted companionInstanceId runnerId fingerprint acceptedAt

section Responses

variable (parsers : ResponseParsers)

def parseResponsePayload (type : CompanionResponseType) (payload : JsValue) :
    Check CompanionResponsePayload :=
  match type with
  | .handshakeChallenge => parseHandshakeChallenge payload
  | .handshakeAccepted => parseHandshakeAccepted payload
  | .sessionShow => parseSessionPayload payload "shown"
  | .sessionPause => parseSessionPayload payload "paused"
  | .sessionResume => parseSessionPayload payload "resumed"
  | .sessionStop => parseSessionPayload payload "stopped"
  | .sessionClose => parseSessionPayload payload "closed"
  | .companionProbe => parseCompanionCapabilityProbeResponse payload
  | .appLaunch => (parseAppSession payload).map .appSession
  | .appReset | .appShutdown => parseLifecycleDonePayload payload
  | .uiaCapture => (parsers.parseCompanionUiaSource payload).map .uiaSource
  | .permitRequest => (parsers.parseCompanionDecision payload).map .decision
  | .actionExecute => (parseLocalActionOutcomeReport payload).map .outcome

/-! ## Envelopes -/

def parseResponseType (value : JsValue) : Check CompanionResponseType :=
  match value with
  | .str s =>
    match companionResponseTypes.find? fun type => type.text = s with
    | some type => .ok type
    | none => refuse .unknownResponseType ("unknown response type: " ++ s)
  | value => refuse .unknownResponseType ("unknown response type: " ++ parsers.toText value)

def parseCompanionStableError (value : JsValue) : Check CompanionStableError := do
  let raw ← requireRecord value .invalidResponseShape "response.error"
  exactKeys raw ["code", "safeMessage"] .invalidResponseShape "response.error"
  match stableErrorCodes.find? fun code => JsValue.field "code" raw = .str code.text with
  | none => refuse .invalidResponseShape "response.error.code is invalid"
  | some code =>
    let safeMessage ← str (JsValue.field "safeMessage" raw) .invalidResponseShape
      "response.error.safeMessage" maxErrorMessageLength
    return ⟨code, safeMessage⟩

def parseCompanionResponse (value : JsValue) : Check CompanionResponse := do
  let raw ← requireRecord value .invalidResponseShape "response"
  exactKeys raw ["protocolMajor", "requestId", "type", "status", "payload", "error"]
    .invalidResponseShape "response"
  if JsValue.field "protocolMajor" raw ≠ .int 1 then
    refuse .invalidHandshake "response.protocolMajor must be 1"
  let requestId ← str (JsValue.field "requestId" raw) .invalidCorrelation "response.requestId"
    maxRequestIdLength
  let type ← parseResponseType parsers (JsValue.field "type" raw)
  match JsValue.field "status" raw with
  | .str "ok" =>
    if JsValue.field "error" raw ≠ .undefined then
      refuse .invalidResponseShape "ok response must not include error"
    let payload ← parseResponsePayload parsers type (JsValue.field "payload" raw)
    return ⟨requestId, type, .ok payload⟩
  | .str "error" =>
    if JsValue.field "payload" raw ≠ .undefined then
      refuse .invalidResponseShape "error response must not include payload"
    let error ← parseCompanionStableError (JsValue.field "error" raw)
    return ⟨requestId, type, .error error⟩
  | _ => refuse .invalidResponseShape "response.status must be ok or error"

end Responses

end Qualigence.Desktop.Companion
