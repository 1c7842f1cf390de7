import Qualigence.Protocol.Job

/-! # Runner protocol messages

The messages of protocol major 1 that Core and a Runner exchange, and the negotiation of
the major and of capabilities. What a Runner sends is not trusted: payloads and findings
are whatever JSON value arrived.
-/

namespace Qualigence.Protocol

/-! ## Capabilities and versions -/

structure RunnerCapabilities where
  operatingSystem : String
  architecture : String
  targetAdapters : List String
  observationExtensions : List String
  actionKinds : List String
  structuredOutput : Bool
  visionInput : Bool
  maximumArtifactBytes : ℕ
  deriving DecidableEq

/-- The entries of a list in the order a `Set` built from it keeps them. -/
def setOf (xs : List String) : List String :=
  xs.foldl (fun seen x => if x ∈ seen then seen else seen ++ [x]) []

/-- The capability tokens a Runner advertises. -/
def advertisedCapabilityTokens (caps : RunnerCapabilities) : List String :=
  setOf (caps.targetAdapters.map ("target:" ++ ·) ++
    caps.observationExtensions.map ("observation:" ++ ·) ++
    caps.actionKinds.map ("action:" ++ ·) ++
    (if caps.structuredOutput then ["model:structured-output"] else []) ++
    (if caps.visionInput then ["model:vision-input"] else []))

def webObservationV1CapabilityTokens : List String :=
  ["observation:observation-graph/v1", "observation:web/v1"]

/-- The requirements that the advertised capabilities leave open. -/
def negotiateCapabilities (caps : RunnerCapabilities) (required : List String) : List String :=
  required.filter fun token => token ∉ advertisedCapabilityTokens caps

def supportedProtocolMajors : List ℕ := [1]

/-- The highest major that both sides support. -/
def negotiateProtocolMajor (offered : List ℕ) : Option ℕ :=
  (supportedProtocolMajors.filter fun major => major ∈ offered).foldl
    (fun best major => match best with
      | none => some major
      | some b => if major > b then some major else some b) none

structure RunnerHello where
  runnerId : String
  runnerVersion : String
  supportedProtocolMajors : List ℕ
  capabilities : RunnerCapabilities
  resumeToken : Option String

structure SessionWelcomeParameters where
  serverVersion : String
  heartbeatIntervalMs : ℕ
  leaseDurationMs : ℕ
  traceBatchMaximumEvents : ℕ
  traceBatchMaximumBytes : ℕ
  maximumInFlightBatches : ℕ
  maximumPendingWriteBytes : ℕ
  deriving DecidableEq

structure RunnerWelcome extends SessionWelcomeParameters where
  sessionId : String
  resumeToken : String
  selectedProtocolMajor : ℕ
  deriving DecidableEq

/-! ## Offers, leases and completions -/

structure ExecutionJobOffer where
  offerId : String
  job : AcceptedExecutionJob
  requiredCapabilities : List String
  leaseDurationMs : ℕ
  deriving DecidableEq

structure ExecutionJobLease where
  jobId : String
  runId : String
  leaseToken : String
  leaseEpoch : ℕ
  expiresAt : Timestamp
  deriving DecidableEq

inductive CompletionStatus where
  | passed
  | finding (finding : JsValue)
  | blocked (errorCode : Option String)
  | error (errorCode : String)

/-- The terminal result a Runner reports for a run. -/
structure ExecutionCompletion where
  jobId : String
  runId : String
  status : CompletionStatus

def ExecutionCompletion.toValue (c : ExecutionCompletion) : JsValue :=
  .obj ([("jobId", .str c.jobId), ("runId", .str c.runId)] ++
    match c.status with
    | .passed => [("status", .str "passed")]
    | .finding finding => [("status", .str "finding"), ("finding", finding)]
    | .blocked errorCode =>
      ("status", .str "blocked") :: JsValue.optional "errorCode" (errorCode.map .str)
    | .error errorCode => [("status", .str "error"), ("errorCode", .str errorCode)])

/-! ## Trace -/

/-- An event of a trace. Its stage is the text that arrived: the wire casts it to a stage
without a check. -/
structure TraceEvent where
  protocolVersion : String
  schemaVersion : String
  messageId : String
  idempotencyKey : String
  runId : String
  sequenceNumber : ℕ
  stepIndex : Option ℕ
  stage : String
  occurredAt : Timestamp
  payloadHash : String
  payload : JsValue
  deriving DecidableEq

/-- The event without its own hash, which is what the hash covers. -/
def TraceEvent.hashInput (e : TraceEvent) : JsValue :=
  .obj ([("protocolVersion", .str e.protocolVersion), ("schemaVersion", .str e.schemaVersion),
    ("messageId", .str e.messageId), ("idempotencyKey", .str e.idempotencyKey),
    ("runId", .str e.runId), ("sequenceNumber", .int e.sequenceNumber)] ++
    JsValue.optional "stepIndex" (e.stepIndex.map fun i => .int i) ++
    [("stage", .str e.stage), ("occurredAt", .str e.occurredAt), ("payload", e.payload)])

/-- `canonicalTraceEventHash`. -/
def canonicalTraceEventHash (P : Platform) (e : TraceEvent) : Option String :=
  canonicalPayloadHash P e.hashInput

structure ExecutionEventBatch where
  batchId : String
  runId : String
  firstSequenceNumber : ℕ
  events : List TraceEvent

structure ExecutionEventAck where
  batchId : String
  runId : String
  nextExpectedSequenceNumber : ℕ
  deriving DecidableEq

/-! ## A concrete environment and job -/

/-- An environment that knows the digests and URLs it is given. -/
def Platform.table (digests : List (List Char × String)) (urls : List (String × Url)) :
    Platform where
  sha256Hex bytes := ((digests.find? fun e => utf8Encode e.1 = bytes).map (·.2)).getD ""
  sha256Base64url _ := ""
  newUrl text := (urls.find? fun e => e.1 = text).map (·.2)
  bindText
    | .str s => some s
    | _ => none

/-- One web origin, and the digest of the one token that the samples use. -/
def samplePlatform : Platform :=
  .table [("token".toList, "3c469e9d6c5875d37a43f353d4f88e61fcf812c66eee3457465a40b0da4153e0")]
    [("https://app.test", ⟨"https:", "", "", "https://app.test"⟩)]

def samplePolicy : ExecutionPolicySnapshot where
  policyId := "policy"
  environment := .isolatedTest
  allowedOrigins := ["https://app.test"]
  allowedActionKinds := [.click]
  maximumRisk := .normal
  explorationAllowed := false
  issuedAt := "2026-01-01T00:00:00.000Z"
  expiresAt := "2026-01-02T00:00:00.000Z"

/-- A job without a plan for a web target. -/
def sampleJob (jobId runId : String) : AcceptedExecutionJob where
  jobId := jobId
  runId := runId
  projectId := "project"
  target := .web "https://app.test"
  objective := "objective"
  policy := samplePolicy
  plan := none

example : (parseExecutionJob samplePlatform (sampleJob "job" "run").toValue).toOption =
    some (sampleJob "job" "run") := by decide

end Qualigence.Protocol
