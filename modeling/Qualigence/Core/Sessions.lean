import Qualigence.Core.Ownership

/-! # Runner sessions and trace ingestion

`RunnerSessionService` opens and closes the sessions of authenticated Runners, with resume
credentials from `RunnerResumeTokenService`, and ingests their trace batches through
`TraceIngestor`: event by event, and for a finding event the finding in a second step.
-/

namespace Qualigence.Core

open Foundation Protocol Lease Trace

structure CoreOptions extends RunOwnershipOptions where
  resumeTtlMs : ℕ
  welcome : SessionWelcomeParameters

/-! ## Resume credentials -/

namespace RunnerResumeTokenService

variable (o : CoreOptions)

/-- The derivation of a replacement credential starts with this text. -/
def rotationDerivationPrefix : String := "qualigence:resume-rotation:v1:"

def hashToken (token : String) : String := o.platform.sha256 token

def deriveReplacementToken (presentedToken : String) : String :=
  o.platform.sha256Base64url (utf8Bytes (rotationDerivationPrefix ++ presentedToken))

def issue (binding : ResumeTokenBinding) : Service String := do
  let token ← generate
  perform (.issueResumeToken (hashToken o token) binding
    (toISOString ((← now) + o.resumeTtlMs)))
  return token

/-- Redeem a credential; the replacement is derived from it. -/
def redeem (token : String) (presented : ResumePresentedIdentity) :
    Service (ResumeTokenBinding × String) := do
  let replacementToken := deriveReplacementToken o token
  let replacementExpiresAt := toISOString ((← now) + o.resumeTtlMs)
  let result ← Store.rotateResumeToken
    { presentedTokenHash := hashToken o token,
      replacementTokenHash := hashToken o replacementToken, replacementExpiresAt, presented,
      rotatedAt := ← nowIso }
  match result with
  | some (_, binding) => return (binding, replacementToken)
  | none =>
    fail .runnerResumeRejected "unknown, expired, or already-consumed resume token" []

end RunnerResumeTokenService

/-! ## Trace ingestion -/

namespace TraceIngestor

/-- The non-empty strings of an array. -/
def textsOf : JsValue → List String
  | .arr items => items.filterMap fun
    | .str s => if s = "" then none else some s
    | _ => none
  | _ => []

/-- A property of a value; `null` and `undefined` have none and raise a `TypeError`. -/
def property (key : String) : JsValue → Option JsValue
  | .undefined | .null => none
  | .obj fields => some (JsValue.field key fields)
  | _ => some .undefined

/-- The entries a `for … of` loop visits, with a default for `null` and `undefined`. -/
def entries : JsValue → Option (List JsValue)
  | .undefined | .null => some []
  | .arr items => some items
  | .str s => some (s.toList.map fun c => .str (String.ofList [c]))
  | _ => none

/-- The artifacts an event refers to, or no value for a `TypeError`. -/
def artifactRefs (event : TraceEvent) : Option (List String) := do
  let refs ←
    if event.stage = "finding" then
      textsOf <$> property "evidenceRefs" event.payload
    else if event.stage = "observation" then do
      let own ← property "evidenceRefs" event.payload
      let artifacts ← property "artifactRefs" event.payload
      let nodes ← entries (← property "nodes" event.payload)
      let nodeRefs ← nodes.mapM fun node => textsOf <$> property "evidenceRefs" node
      return textsOf own ++ textsOf artifacts ++ nodeRefs.flatten
    else return []
  return (setOf refs).insertionSort fun x y => utf16Le x y

variable (P : Platform)

def ingest (submission : TraceEvent) : Service TraceAppendResult := do
  let computed := canonicalTraceEventHash P submission
  if some submission.payloadHash ≠ computed then
    return .hashMismatch submission.payloadHash computed
  else match artifactRefs submission with
    | none => Program.throw .typeError
    | some [] => Store.appendTraceEvent submission
    | some referenced => do
      let acknowledged ← Store.acknowledgedArtifactIds submission.runId referenced
      let missing := referenced.filter (· ∉ acknowledged)
      if missing ≠ [] then return .artifactUnacknowledged missing
      else Store.appendTraceEvent submission

def ingestFinding (finding : JsValue) : Service FindingAppendResult :=
  Store.appendFinding finding (canonicalPayloadHash P finding)

end TraceIngestor

/-! ## Sessions -/

namespace RunnerSessionService

variable (o : CoreOptions)

def register (hello : RunnerHello) (identity : AuthenticatedRunnerContext) :
    Service RunnerWelcome := do
  match negotiateProtocolMajor hello.supportedProtocolMajors with
  | none =>
    fail .protocolVersionMismatch "no shared protocol major"
      [("offeredProtocolMajors",
          .arr (hello.supportedProtocolMajors.map fun n => .int n)),
        ("supportedProtocolMajors", .arr (supportedProtocolMajors.map fun n => .int n))]
  | some protocolMajor =>
    let runnerId := identity.runnerId
    let certificateFingerprint := identity.certificateFingerprint
    let (sessionId, resumeToken) ← match hello.resumeToken with
      | some token => do
        let (binding, replacement) ← RunnerResumeTokenService.redeem o token
          { runnerId, certificateFingerprint, protocolMajor }
        pure (binding.previousSessionId, replacement)
      | none => do
        let sessionId ← generate
        let token ← RunnerResumeTokenService.issue o
          { runnerId, certificateFingerprint, previousSessionId := sessionId, protocolMajor }
        pure (sessionId, token)
    let createdAt ← nowIso
    perform (.saveSession
      { sessionId, runnerId, certificateFingerprint,
        capabilities := advertisedCapabilityTokens hello.capabilities, protocolMajor,
        createdAt })
    perform (.setSession
      { sessionId, identity, capabilities := hello.capabilities, protocolMajor })
    return { o.welcome with sessionId, resumeToken, selectedProtocolMajor := protocolMajor }

def closeSession (sessionId : String) : Service Unit := do
  perform (.deleteSession sessionId)
  perform (.closeSession sessionId (← nowIso))

/-- The events of a batch one after another; `next` is the number to acknowledge. -/
def ingestEvents (batch : ExecutionEventBatch) : List TraceEvent → ℕ → Service ExecutionEventAck
  | [], next => return ⟨batch.batchId, batch.runId, next⟩
  | event :: events, _ => do
    match ← TraceIngestor.ingest o.platform event with
    | .accepted next =>
      if event.stage = "finding" then
        -- whatever the finding store answers, the loop goes on
        let _ ← TraceIngestor.ingestFinding o.platform event.payload
        ingestEvents batch events next
      else ingestEvents batch events next
    | .duplicate next => ingestEvents batch events next
    | .sequenceGap expected => return ⟨batch.batchId, batch.runId, expected⟩
    | .artifactUnacknowledged missing =>
      fail .artifactUnacknowledged
        ("trace references unacknowledged artifact(s) for run " ++ batch.runId)
        (forRun batch.runId ++ [("sequenceNumber", .int event.sequenceNumber),
          ("artifactIds", AppTarget.strings missing)])
    | .hashMismatch _ _ | .integrityViolation _ =>
      fail .traceIntegrityViolation
        ("trace integrity violation at sequence " ++ toString event.sequenceNumber ++
          " for run " ++ batch.runId)
        (forRun batch.runId ++ [("sequenceNumber", .int event.sequenceNumber)])

def ingest (sessionId : String) (batch : ExecutionEventBatch) : Service ExecutionEventAck := do
  match ← Memory.session sessionId with
  | none => fail .unknownSession ("session " ++ sessionId ++ " is not known") []
  | some session =>
    RunOwnershipService.authorizeTraceUpload session.identity batch
    ingestEvents o batch batch.events batch.firstSequenceNumber

end RunnerSessionService

end Qualigence.Core
