import Mathlib.Algebra.Group.Nat.Defs
import Qualigence.Foundation.Calls
import Qualigence.Gateway.Usage
import Qualigence.Protocol.Value

/-! # The model gateway

One structured invocation of a model: the provider is asked again once after a transient failure
and once after an output that does not match the schema. Everything that the gateway awaits may
settle, fail or lose against the signal of the request, which may be aborted at any time.
-/

namespace Qualigence.Gateway

open Foundation Protocol

inductive ProviderErrorCode where
  | authenticationFailed
  | invalidRequest
  | rateLimited
  | timedOut
  | providerUnavailable
  deriving DecidableEq

inductive VisualInputErrorCode where
  | visionNotAllowed
  | visionCapabilityMismatch
  | imageIntegrityViolation
  deriving DecidableEq

inductive ModelGatewayErrorCode where
  | provider (code : ProviderErrorCode)
  | invalidStructuredOutput
  | capabilityMismatch
  | visual (code : VisualInputErrorCode)
  deriving DecidableEq

def ProviderErrorCode.text : ProviderErrorCode → String
  | .authenticationFailed => "AuthenticationFailed"
  | .invalidRequest => "InvalidRequest"
  | .rateLimited => "RateLimited"
  | .timedOut => "TimedOut"
  | .providerUnavailable => "ProviderUnavailable"

def ModelGatewayErrorCode.text : ModelGatewayErrorCode → String
  | .provider code => code.text
  | .invalidStructuredOutput => "InvalidStructuredOutput"
  | .capabilityMismatch => "CapabilityMismatch"
  | .visual .visionNotAllowed => "VisionNotAllowed"
  | .visual .visionCapabilityMismatch => "VisionCapabilityMismatch"
  | .visual .imageIntegrityViolation => "ImageIntegrityViolation"

/-- The errors of the gateway. A reason is any value that is no such error. -/
inductive GatewayError (N R : Type) where
  | gateway (code : ModelGatewayErrorCode) (message : String) (usage : Option (ModelUsage N))
      (providerAttempted usageUnavailable : Bool)
  | invocation (reason : R) (usageState : ModelUsageState N) (providerAttempted : Bool)
  | abort (reason : R) (usageState : ModelUsageState N) (providerAttempted : Bool)

namespace GatewayError

variable {N R : Type}

def usageState : GatewayError N R → ModelUsageState N
  | gateway _ _ usage _ usageUnavailable => Gateway.usageState usage usageUnavailable
  | invocation _ state _ | abort _ state _ => state

def providerAttempted : GatewayError N R → Bool
  | gateway _ _ _ attempted _ | invocation _ _ attempted | abort _ _ attempted => attempted

/-- The error code of the report about a failed invocation. -/
def reportedCode : GatewayError N R → String
  | gateway code .. => code.text
  | invocation .. => "ProviderUnavailable"
  | abort .. => "Aborted"

/-- An error before any attempt of the provider. -/
def refused (code : ModelGatewayErrorCode) (message : String) : GatewayError N R :=
  gateway code message none false false

end GatewayError

/-! ## Requests -/

inductive ModelOperation where
  | executionDecision
  | executionVerification
  | planningPrdTestCases
  | skillInduction
  | explorationNextAction
  | investigationReproductionPlanning
  | investigationBugAnalysis
  deriving DecidableEq

inductive MessageRole where
  | system
  | user
  | assistant
  deriving DecidableEq

inductive ModelImageSensitivity where
  | visible
  | internal
  | sensitive
  deriving DecidableEq

structure ModelImageInput where
  dataBase64 : String
  sha256 : String
  sensitivity : ModelImageSensitivity
  sourceArtifactId : String
  deriving DecidableEq

structure ModelMessage where
  role : MessageRole
  content : String
  images : List ModelImageInput
  deriving DecidableEq

structure ModelDataPolicy where
  visualInputDisabled : Bool
  allowedImageSensitivities : List ModelImageSensitivity
  maximumImageBytes : ℕ

structure ModelInvocationContext where
  runId : String
  invocationId : String
  deriving DecidableEq

/-- A request; its signal is part of the environment. -/
structure StructuredModelRequest where
  operation : ModelOperation
  model : String
  messages : List ModelMessage
  timeoutMs : ℕ
  maximumOutputTokens : Option Int
  invocation : Option ModelInvocationContext
  dataPolicy : Option ModelDataPolicy

structure ModelProviderRequest where
  request : StructuredModelRequest
  responseSchema : JsValue

structure ModelProviderResponse (N : Type) where
  output : JsValue
  model : String
  providerRequestId : Option String
  finishReason : String
  usage : Option (ModelUsage N)

/-- What a provider fails with: an error of its contract, or any other value. -/
inductive ProviderFailure (N : Type) where
  | providerError (code : ProviderErrorCode) (message : String) (usage : Option (ModelUsage N))
  | other

structure ValidatedModelResult (N T : Type) where
  value : T
  model : String
  finishReason : String
  providerRequestId : Option String
  usage : Option (ModelUsage N)
  usageState : Option (ModelUsageState N)

structure ValidationIssue where
  path : String
  reason : String

structure ModelInvocationReport (N : Type) where
  context : ModelInvocationContext
  operation : ModelOperation
  succeeded : Bool
  model : String
  usage : Option (ModelUsage N)
  usageAvailable : Bool
  providerRequestId : Option String
  errorCode : Option String

/-! ## Calls -/

/-- How something ends that is awaited together with the signal. -/
inductive Awaited (R E α : Type) where
  | settled (a : α)
  | failed (e : E)
  | aborted (reason : R)

/-- What the contract of the output says of an output. -/
inductive Parsed (R T : Type) where
  | valid (value : T)
  | invalid (issues : List ValidationIssue)
  | defect (reason : R)

/-- What the gateway looks at and calls: the signal of the request, asked or made to throw, the
schema and the parser of the output contract, the provider, the delay and the observer. -/
inductive GatewayOp (N : Type) where
  | aborted
  | throwIfAborted
  | jsonSchema
  | invoke (request : ModelProviderRequest)
  | delay (delayMs : ℕ)
  | parse (output : JsValue)
  | record (report : ModelInvocationReport N)

/-- The signal answers with the reason for which it was aborted. -/
def GatewayOp.Reply (R T : Type) {N : Type} : GatewayOp N → Type
  | aborted | throwIfAborted => Option R
  | jsonSchema => Except R JsValue
  | invoke _ => Awaited R (ProviderFailure N) (ModelProviderResponse N)
  | delay _ | record _ => Awaited R R Unit
  | parse _ => Parsed R T

abbrev gatewaySignature (N R T : Type) : Signature := ⟨GatewayOp N, GatewayOp.Reply R T⟩

abbrev Invoking (N R T α : Type) := Program (gatewaySignature N R T) Empty α

/-- What is thrown inside the gateway: an error of its own, or a reason as it came. -/
inductive Thrown (N R : Type) where
  | own (error : GatewayError N R)
  | raw (reason : R)

/-- The parts of the gateway and of the output contract that are fixed for an invocation. The digest
is the SHA-256 digest of the bytes that a base64 text stands for. -/
structure Setting (N : Type) where
  num : Numbers N
  structuredOutput : Bool
  visionInput : Bool
  observed : Bool
  contractName : String
  imageDigest : String → String

section Program

variable {N R T : Type} (g : Setting N)

def call (op : GatewayOp N) : Invoking N R T (op.Reply R T) :=
  Program.perform (S := gatewaySignature N R T) op

/-! ## Visual input -/

def base64ByteLength (dataBase64 : String) : ℕ :=
  jsLength (String.ofList (dataBase64.toList.reverse.dropWhile (· = '=')).reverse) * 3 / 4

def hasMatchingHash (image : ModelImageInput) : Bool :=
  base64ByteLength image.dataBase64 ≠ 0 ∧ g.imageDigest image.dataBase64 = image.sha256

/-- The check of one image under a policy. -/
def checkImage (policy : ModelDataPolicy) (image : ModelImageInput) :
    Except (VisualInputErrorCode × String) Unit :=
  if ¬ hasMatchingHash g image then
    .error (.imageIntegrityViolation,
      "Image " ++ image.sourceArtifactId ++ " failed SHA-256 integrity verification.")
  else if image.sensitivity ∉ policy.allowedImageSensitivities then
    .error (.visionNotAllowed,
      "Image " ++ image.sourceArtifactId ++
        " sensitivity is not permitted by the data policy.")
  else if policy.maximumImageBytes < base64ByteLength image.dataBase64 then
    .error (.visionNotAllowed, "Image " ++ image.sourceArtifactId ++ " of " ++
      toString (base64ByteLength image.dataBase64) ++
      " bytes exceeds the data policy maximum of " ++ toString policy.maximumImageBytes ++
      " bytes.")
  else .ok ()

def assertVisualInputAllowed (request : StructuredModelRequest) :
    Except (VisualInputErrorCode × String) Unit :=
  let images := request.messages.flatMap (·.images)
  if images = [] then .ok ()
  else
    let count := toString images.length
    let disabled : Except (VisualInputErrorCode × String) Unit := .error (.visionNotAllowed,
      "Visual input is not permitted for " ++ count ++
        " attachment(s) without an enabling data policy.")
    match request.dataPolicy with
    | none => disabled
    | some policy =>
      if policy.visualInputDisabled then disabled
      else if ¬ g.visionInput then .error (.visionCapabilityMismatch,
        "The selected model provider cannot accept " ++ count ++ " image attachment(s).")
      else images.forM (checkImage g policy)

/-! ## Corrections -/

/-- One code unit of a token: everything but letters, digits and `_.[]-` becomes an underscore. -/
def sanitizeChar (c : Char) : List Char :=
  if c.isAlphanum ∨ c ∈ ['_', '.', '[', ']', '-'] then [c]
  else if c.toNat < 0x10000 then ['_'] else ['_', '_']

def sanitizeValidationToken (value : String) (maximumLength : ℕ) : String :=
  match (value.toList.flatMap sanitizeChar).take maximumLength with
  | [] => "output"
  | sanitized => String.ofList sanitized

def summarizeValidationIssues (issues : List ValidationIssue) : Option String :=
  match (issues.take 3).map fun issue => sanitizeValidationToken issue.path 96 ++ ":" ++
      sanitizeValidationToken issue.reason 64 with
  | [] => none
  | texts => some (", ".intercalate texts)

/-- The request with the message that asks for a correction. -/
def correctionRequest (request : StructuredModelRequest) (issues : List ValidationIssue) :
    StructuredModelRequest :=
  let summary := match summarizeValidationIssues issues with
    | none => ""
    | some text => " Validation issues: " ++ text ++ "."
  { request with
    messages := request.messages ++ [⟨.user,
      "The previous response failed schema validation for " ++ g.contractName ++ "." ++ summary ++
        " Return only JSON that matches the supplied schema.", []⟩] }

/-! ## The retry loop -/

/-- The parts of the error that is made of a failure. -/
structure NormalizedError (N : Type) where
  code : ProviderErrorCode
  message : String
  usage : Option (ModelUsage N)

def normalizeProviderError : ProviderFailure N → NormalizedError N
  | .providerError code message usage => ⟨code, message, usage⟩
  | .other => ⟨.providerUnavailable, "The model provider is unavailable.", none⟩

def isTransient : ProviderErrorCode → Bool
  | .rateLimited | .timedOut | .providerUnavailable => true
  | .authenticationFailed | .invalidRequest => false

def abortError (reason : R) (acc : Accumulated N) (usageUnavailable : Bool) : GatewayError N R :=
  .abort reason (accumulatedUsageState { acc with available := !usageUnavailable }) true

/-- The variables of the retry loop. -/
structure LoopState (N : Type) where
  schemaAttempts : ℕ
  transientAttempts : ℕ
  providerRequest : StructuredModelRequest
  acc : Accumulated N
  providerAttempts : ℕ

def LoopState.start (request : StructuredModelRequest) : LoopState N :=
  ⟨0, 0, request, .start g.num, 0⟩

/-- What is left of the retries. -/
def LoopState.retries (s : LoopState N) : ℕ := (1 - s.schemaAttempts) + (1 - s.transientAttempts)

def fail (error : GatewayError N R) :
    Invoking N R T (Except (Thrown N R) (ValidatedModelResult N T)) :=
  pure (.error (.own error))

def failRaw (reason : R) : Invoking N R T (Except (Thrown N R) (ValidatedModelResult N T)) :=
  pure (.error (.raw reason))

/-- The result of a valid output; the signal is looked at once more. -/
def deliver (s : LoopState N) (response : ModelProviderResponse N) (value : T) :
    Invoking N R T (Except (Thrown N R) (ValidatedModelResult N T)) := do
  let signal : Option R ← call .aborted
  match signal with
  | some reason => fail (abortError reason s.acc !s.acc.available)
  | none => pure (.ok
    { value := value, model := response.model, finishReason := response.finishReason,
      providerRequestId := response.providerRequestId, usage := completeUsage s.acc,
      usageState := some (accumulatedUsageState s.acc) })

/-- `while (true)`, from the variables at the start of a round. -/
def attemptLoop (s : LoopState N) :
    Invoking N R T (Except (Thrown N R) (ValidatedModelResult N T)) := do
  let signal : Option R ← call .aborted
  match signal with
  | some reason =>
    if s.providerAttempts = 0 then failRaw reason
    else fail (abortError reason s.acc !s.acc.available)
  | none =>
  let schema : Except R JsValue ← call .jsonSchema
  match schema with
  | .error reason => failRaw reason
  | .ok responseSchema =>
  let answer : Awaited R (ProviderFailure N) (ModelProviderResponse N) ←
    call (.invoke ⟨s.providerRequest, responseSchema⟩)
  let attempted := { s with providerAttempts := s.providerAttempts + 1 }
  match answer with
  | .aborted reason => fail (abortError reason s.acc true)
  | .failed failure =>
    let normalized := normalizeProviderError failure
    let failed := { attempted with acc := accumulateUsage g.num s.acc normalized.usage }
    let signal : Option R ← call .aborted
    match signal with
    | some reason => fail (abortError reason failed.acc !failed.acc.available)
    | none =>
    if isTransient normalized.code ∧ s.transientAttempts < 1 then
      let delayed : Awaited R R Unit ← call (.delay (100 * 2 ^ s.transientAttempts))
      match delayed with
      | .aborted reason => fail (abortError reason failed.acc !failed.acc.available)
      | .failed reason => failRaw reason
      | .settled _ => attemptLoop { failed with transientAttempts := s.transientAttempts + 1 }
    else fail (.gateway (.provider normalized.code) normalized.message (knownUsage failed.acc)
      true !failed.acc.available)
  | .settled response =>
    let answered := { attempted with acc := accumulateUsage g.num s.acc response.usage }
    let signal : Option R ← call .aborted
    match signal with
    | some reason => fail (abortError reason answered.acc !answered.acc.available)
    | none =>
    let parsed : Parsed R T ← call (.parse response.output)
    match parsed with
    | .valid value => deliver answered response value
    | .defect reason => fail (.invocation reason (accumulatedUsageState answered.acc) true)
    | .invalid issues =>
      if s.schemaAttempts < 1 then
        attemptLoop { answered with
          schemaAttempts := s.schemaAttempts + 1
          providerRequest := correctionRequest g s.providerRequest issues }
      else fail (.gateway .invalidStructuredOutput
        ("The provider returned output that does not match " ++ g.contractName ++ ".")
        (knownUsage answered.acc) true !answered.acc.available)
termination_by s.retries
decreasing_by all_goals simp only [LoopState.retries]; omega

def runStructured (request : StructuredModelRequest) :
    Invoking N R T (Except (Thrown N R) (ValidatedModelResult N T)) :=
  if ¬ g.structuredOutput then
    fail (.refused .capabilityMismatch
      "The selected model provider does not support structured output.")
  else if ∃ n ∈ request.maximumOutputTokens, n > 9007199254740991 ∨ n ≤ 0 then
    fail (.refused (.provider .invalidRequest)
      "maximumOutputTokens must be a positive safe integer.")
  else match assertVisualInputAllowed g request with
  | .error (code, message) => fail (.refused (.visual code) message)
  | .ok _ => attemptLoop g (.start g request)

/-! ## The invocation -/

def asInvocationError : Thrown N R → Invoking N R T (GatewayError N R)
  | .own error => pure error
  | .raw reason => do
    let signal : Option R ← call .aborted
    match signal with
    | some abortReason => pure (.abort abortReason (.unavailable none) false)
    | none => pure (.invocation reason (.unavailable none) false)

/-- `report`, where there is an observer and the request has a context. -/
def report (request : StructuredModelRequest)
    (fields : ModelInvocationContext → ModelInvocationReport N) :
    Invoking N R T (Awaited R R Unit) :=
  match g.observed, request.invocation with
  | true, some context => call (.record (fields context))
  | _, _ => pure (.settled ())

/-- `runStructured` and the last look at the signal. -/
def runChecked (request : StructuredModelRequest) :
    Invoking N R T (Except (Thrown N R) (ValidatedModelResult N T)) := do
  let outcome : Except (Thrown N R) (ValidatedModelResult N T) ← runStructured g request
  match outcome with
  | .error thrown => pure (.error thrown)
  | .ok result =>
    let signal : Option R ← call .throwIfAborted
    match signal with
    | some reason => failRaw reason
    | none => pure (.ok result)

/-- The end of an invocation that failed. -/
def reportFailure (request : StructuredModelRequest) (error : GatewayError N R) :
    Invoking N R T (GatewayError N R) := do
  let reported : Awaited R R Unit ← report g request fun context =>
    { context := context, operation := request.operation, succeeded := false
      model := request.model, usage := usageFromState error.usageState
      usageAvailable := match error.usageState with
        | .available _ => true
        | .unavailable _ => false
      providerRequestId := none, errorCode := some error.reportedCode }
  match reported with
  | .settled _ => pure error
  | .aborted reason => pure (.abort reason error.usageState error.providerAttempted)
  | .failed _ =>
    let signal : Option R ← call .aborted
    match signal with
    | some reason => pure (.abort reason error.usageState error.providerAttempted)
    | none => pure error

/-- The end of an invocation that gave a result. -/
def reportSuccess (request : StructuredModelRequest) (result : ValidatedModelResult N T) :
    Invoking N R T (Except (GatewayError N R) (ValidatedModelResult N T)) := do
  let state := result.usageState.getD (usageState result.usage result.usage.isNone)
  let reported : Awaited R R Unit ← report g request fun context =>
    { context := context, operation := request.operation, succeeded := true
      model := result.model, usage := usageFromState state
      usageAvailable := match state with
        | .available _ => true
        | .unavailable _ => false
      providerRequestId := result.providerRequestId, errorCode := none }
  match reported with
  | .settled _ => pure (.ok result)
  | .aborted reason => pure (.error (.abort reason state true))
  | .failed reportError =>
    let signal : Option R ← call .aborted
    match signal with
    | some reason => pure (.error (.abort reason state true))
    | none => pure (.error (.invocation reportError state true))

def invokeStructured (request : StructuredModelRequest) :
    Invoking N R T (Except (GatewayError N R) (ValidatedModelResult N T)) := do
  let outcome : Except (Thrown N R) (ValidatedModelResult N T) ← runChecked g request
  match outcome with
  | .ok result => reportSuccess g request result
  | .error thrown =>
    let error : GatewayError N R ← asInvocationError thrown
    let final : GatewayError N R ← reportFailure g request error
    return .error final

end Program

end Qualigence.Gateway
