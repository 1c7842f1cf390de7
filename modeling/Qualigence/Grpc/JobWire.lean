import Qualigence.Protocol.Messages
import Qualigence.Protocol.Protobuf

/-! # Jobs and completions on the wire

The mappers between jobs and completions and the objects of the Protobuf schema, with the
messages of the schema they use. A decoded job is parsed again like any other.
-/

namespace Qualigence.Grpc

open Foundation Protocol

/-! ## The schema -/

namespace Schema

open Protobuf

def text (name : String) : String × FieldType := (name, .singular string)
def texts (name : String) : String × FieldType := (name, .repeated string)

def webTarget : WireType := message [text "url"]

def appTargetLaunch : WireType :=
  message [text "executable", texts "args", text "working_directory"]

def appTargetProcess : WireType :=
  message [text "expected_image_name", texts "allowed_child_image_names"]

def appTargetWindow : WireType := message [text "title_pattern", text "automation_id"]

def appTargetReset : WireType :=
  message [text "command", texts "args", ("timeout_ms", .singular uint64)]

def appTargetShutdown : WireType :=
  message [("graceful_timeout_ms", .singular uint64), ("force_after_timeout", .singular bool)]

def appTarget : WireType :=
  message [text "target_id", text "platform", ("launch", .singular appTargetLaunch),
    ("process", .singular appTargetProcess), ("window", .singular appTargetWindow),
    ("reset", .singular appTargetReset), ("shutdown", .singular appTargetShutdown)]

def desktopTarget : WireType := message [("app", .singular appTarget)]

def targetMembers : List (String × FieldType) :=
  [("web", .singular webTarget), ("desktop", .singular desktopTarget)]

def targetRef : WireType := messageOneof [] "target" targetMembers

def executionPolicySnapshot : WireType :=
  message [text "policy_id", text "environment", texts "allowed_origins",
    texts "allowed_action_kinds", text "maximum_risk", ("exploration_allowed", .singular bool),
    text "issued_at", text "expires_at"]

def executionPlanTarget : WireType := message [text "role", text "name", text "purpose"]

def executionPlanNavigate : WireType := message [text "path"]

def executionPlanClick : WireType := message [("target", .singular executionPlanTarget)]

def executionPlanInput : WireType :=
  message [("target", .singular executionPlanTarget), text "value_ref"]

def executionPlanSelect : WireType :=
  message [("target", .singular executionPlanTarget), text "value_ref"]

def executionPlanScroll : WireType :=
  message [("target", .singular executionPlanTarget), text "direction", text "amount"]

def executionPlanVerify : WireType := message [texts "claim_ids"]

def stepMembers : List (String × FieldType) :=
  [("navigate", .singular executionPlanNavigate), ("click", .singular executionPlanClick),
    ("input", .singular executionPlanInput), ("verify", .singular executionPlanVerify),
    ("select", .singular executionPlanSelect), ("scroll", .singular executionPlanScroll)]

def executionPlanStep : WireType :=
  messageOneof [("step_index", .singular uint32)] "step" stepMembers

def executionPlanBudget : WireType :=
  message [("maximum_steps_per_job", .singular uint32),
    ("maximum_wall_clock_ms", .singular uint64), ("maximum_model_tokens", .singular uint64)]

def executionJobPlanSnapshot : WireType :=
  message [text "mission_id", ("mission_revision", .singular uint32), text "test_case_id",
    ("steps", .repeated executionPlanStep), texts "expected_claim_ids",
    ("budget", .singular executionPlanBudget)]

def acceptedExecutionJob : WireType :=
  message [text "job_id", text "run_id", ("target", .singular targetRef), text "objective",
    ("plan", .singular executionJobPlanSnapshot), ("policy", .singular executionPolicySnapshot),
    text "project_id"]

/-- The fields of `CompleteExecution` that a completion fills. -/
def completeExecution : WireType :=
  message [text "job_id", text "run_id", text "status", text "finding_json", text "error_code"]

end Schema

/-! ## To the wire -/

def appTargetToWire (app : AppTarget) : JsValue :=
  .obj [("target_id", .str app.targetId), ("platform", .str "windows"),
    ("launch", .obj ([("executable", .str app.launch.executable),
      ("args", AppTarget.strings app.launch.args)] ++
      JsValue.optional "working_directory" (app.launch.workingDirectory.map .str))),
    ("process", .obj [("expected_image_name", .str app.process.expectedImageName),
      ("allowed_child_image_names", AppTarget.strings app.process.allowedChildImageNames)]),
    ("window", .obj (JsValue.optional "title_pattern" (app.window.titlePattern.map .str) ++
      JsValue.optional "automation_id" (app.window.automationId.map .str))),
    ("reset", .obj [("command", .str app.reset.command),
      ("args", AppTarget.strings app.reset.args), ("timeout_ms", .int app.reset.timeoutMs)]),
    ("shutdown", .obj [("graceful_timeout_ms", .int app.shutdown.gracefulTimeoutMs),
      ("force_after_timeout", .bool app.shutdown.forceAfterTimeout)])]

def targetToWire : TargetRef → JsValue
  | .web url => .obj [("web", .obj [("url", .str url)])]
  | .desktop app => .obj [("desktop", .obj [("app", appTargetToWire app)])]

def policyToWire (policy : ExecutionPolicySnapshot) : JsValue :=
  .obj [("policy_id", .str policy.policyId),
    ("environment", enumText Job.environments policy.environment),
    ("allowed_origins", AppTarget.strings policy.allowedOrigins),
    ("allowed_action_kinds",
      .arr (policy.allowedActionKinds.map (enumText Job.actionKinds))),
    ("maximum_risk", enumText Job.risks policy.maximumRisk),
    ("exploration_allowed", .bool policy.explorationAllowed),
    ("issued_at", .str policy.issuedAt), ("expires_at", .str policy.expiresAt)]

def planTargetToWire (target : ExecutionPlanTarget) : JsValue :=
  .obj (("purpose", .str target.purpose) :: JsValue.optional "role" (target.role.map .str) ++
    JsValue.optional "name" (target.name.map .str))

def planStepToWire (step : ExecutionPlanStep) : JsValue :=
  .obj (JsValue.optional "step_index" (step.stepIndex.map fun i => .int i) ++
    match step with
    | .navigate _ path => [("navigate", .obj [("path", .str path)])]
    | .click _ target => [("click", .obj [("target", planTargetToWire target)])]
    | .input _ target valueRef =>
      [("input", .obj [("target", planTargetToWire target), ("value_ref", .str valueRef)])]
    | .select _ target valueRef =>
      [("select", .obj [("target", planTargetToWire target), ("value_ref", .str valueRef)])]
    | .scroll _ target direction amount =>
      [("scroll", .obj (JsValue.optional "target" (target.map planTargetToWire) ++
        [("direction", enumText Job.directions direction),
          ("amount", enumText Job.amounts amount)]))]
    | .verify _ claimIds =>
      [("verify", .obj [("claim_ids", AppTarget.strings claimIds.toList)])])

def planToWire (plan : ExecutionJobPlanSnapshot) : JsValue :=
  .obj [("mission_id", .str plan.missionId), ("mission_revision", .int plan.missionRevision),
    ("test_case_id", .str plan.testCaseId), ("steps", .arr (plan.steps.toList.map planStepToWire)),
    ("expected_claim_ids", AppTarget.strings plan.expectedClaimIds.toList),
    ("budget", .obj [("maximum_steps_per_job", .int plan.budget.maximumStepsPerJob),
      ("maximum_wall_clock_ms", .int plan.budget.maximumWallClockMs),
      ("maximum_model_tokens", .int plan.budget.maximumModelTokens)])]

def jobToWire (job : AcceptedExecutionJob) : JsValue :=
  .obj ([("job_id", .str job.jobId), ("run_id", .str job.runId),
    ("project_id", .str job.projectId), ("target", targetToWire job.target),
    ("objective", .str job.objective), ("policy", policyToWire job.policy)] ++
    JsValue.optional "plan" (job.plan.map planToWire))

/-! ## From the wire -/

/-- What reading a job raises: a `RunnerProtocolError` with its two codes, an
`ExecutionPolicySnapshotError`, the error of a desktop target, or a property read of
`null`. -/
inductive WireError where
  | protocolViolation (message : String)
  | policyMissing (message : String)
  | policySnapshot
  | appTarget (error : AppTargetError)
  | typeError
  deriving DecidableEq

abbrev Read (α : Type) := Except WireError α

/-- The properties of a value; `null` and `undefined` have none. -/
def properties : JsValue → Read (List (String × JsValue))
  | .obj fields => .ok fields
  | .undefined | .null => .error .typeError
  | _ => .ok []

/-- `value ?? {}`. -/
def orEmpty : JsValue → JsValue
  | .undefined | .null => .obj []
  | v => v

def asString : JsValue → String
  | .str s => s
  | _ => ""

def asNumber : JsValue → JsValue
  | .int n => .int n
  | .real text => .real text
  | _ => .int 0

def asArray : JsValue → List JsValue
  | .arr items => items
  | _ => []

def isAbsent (v : JsValue) : Bool := v = .undefined

def isNullish (v : JsValue) : Bool := v = .undefined ∨ v = .null

/-- `hasWireField` and a read of the field. -/
def requireWireField (wire : List (String × JsValue)) (field message : String) : Read JsValue :=
  match JsValue.field field wire with
  | .undefined => .error (.protocolViolation message)
  | v => .ok v

def requireWireObject (wire : List (String × JsValue)) (field message : String) :
    Read (List (String × JsValue)) := do
  match ← requireWireField wire field message with
  | .obj fields => .ok fields
  | _ => .error (.protocolViolation (message ++ "; field must be an object"))

def requireWireString (wire : List (String × JsValue)) (field message : String) : Read JsValue := do
  match ← requireWireField wire field message with
  | .str s => .ok (.str s)
  | _ => .error (.protocolViolation (message ++ "; field must be a string"))

def optionalWireString (wire : List (String × JsValue)) (field message : String) :
    Read (Option JsValue) :=
  match JsValue.field field wire with
  | .undefined => .ok none
  | .str s => .ok (some (.str s))
  | _ => .error (.protocolViolation (message ++ "; field must be a string"))

def isText : JsValue → Bool
  | .str _ => true
  | _ => false

def wireStringArray (wire : List (String × JsValue)) (field message : String) : Read JsValue :=
  match JsValue.field field wire with
  | .undefined => .ok (.arr [])
  | .arr items =>
    if items.all isText then .ok (.arr items)
    else .error (.protocolViolation (message ++ "; field must be an array of strings"))
  | _ => .error (.protocolViolation (message ++ "; field must be an array of strings"))

def requireWireNumber (wire : List (String × JsValue)) (field message : String) : Read JsValue := do
  match ← requireWireField wire field message with
  | .int n => .ok (.int n)
  | .real text => .ok (.real text)
  | _ => .error (.protocolViolation (message ++ "; field must be a number"))

def requireWireBoolean (wire : List (String × JsValue)) (field message : String) :
    Read JsValue := do
  match ← requireWireField wire field message with
  | .bool b => .ok (.bool b)
  | _ => .error (.protocolViolation (message ++ "; field must be a boolean"))

/-- The reads inside the `try`, and the validation of the candidate they give. -/
def readAppTarget (app launch process reset shutdown : List (String × JsValue))
    (workingDirectory titlePattern automationId : Option JsValue) : Read AppTarget := do
  let targetId ← requireWireString app "target_id"
    "Desktop TargetRef AppTarget target_id is missing"
  let platform ← requireWireString app "platform"
    "Desktop TargetRef AppTarget platform is missing"
  let executable ← requireWireString launch "executable"
    "Desktop TargetRef AppTarget launch.executable is missing"
  let launchArgs ← wireStringArray launch "args"
    "Desktop TargetRef AppTarget launch.args is malformed"
  let expectedImageName ← requireWireString process "expected_image_name"
    "Desktop TargetRef AppTarget process.expected_image_name is missing"
  let allowedChildImageNames ← wireStringArray process "allowed_child_image_names"
    "Desktop TargetRef AppTarget process.allowed_child_image_names is malformed"
  let command ← requireWireString reset "command"
    "Desktop TargetRef AppTarget reset.command is missing"
  let resetArgs ← wireStringArray reset "args"
    "Desktop TargetRef AppTarget reset.args is malformed"
  let timeoutMs ← requireWireNumber reset "timeout_ms"
    "Desktop TargetRef AppTarget reset.timeout_ms is missing"
  let gracefulTimeoutMs ← requireWireNumber shutdown "graceful_timeout_ms"
    "Desktop TargetRef AppTarget shutdown.graceful_timeout_ms is missing"
  let forceAfterTimeout ← requireWireBoolean shutdown "force_after_timeout"
    "Desktop TargetRef AppTarget shutdown.force_after_timeout is missing"
  let candidate : JsValue := .obj [("targetId", targetId), ("platform", platform),
    ("launch", .obj ([("executable", executable), ("args", launchArgs)] ++
      JsValue.optional "workingDirectory" workingDirectory)),
    ("process", .obj [("expectedImageName", expectedImageName),
      ("allowedChildImageNames", allowedChildImageNames)]),
    ("window", .obj (JsValue.optional "titlePattern" titlePattern ++
      JsValue.optional "automationId" automationId)),
    ("reset", .obj [("command", command), ("args", resetArgs), ("timeoutMs", timeoutMs)]),
    ("shutdown", .obj [("gracefulTimeoutMs", gracefulTimeoutMs),
      ("forceAfterTimeout", forceAfterTimeout)])]
  (AppTarget.validateAppTarget candidate).mapError .appTarget

def appTargetFromWire : JsValue → Read AppTarget
  | .obj app => do
    let launch ← requireWireObject app "launch" "Desktop TargetRef AppTarget launch is missing"
    let process ← requireWireObject app "process"
      "Desktop TargetRef AppTarget process is missing"
    let window ← requireWireObject app "window" "Desktop TargetRef AppTarget window is missing"
    let reset ← requireWireObject app "reset" "Desktop TargetRef AppTarget reset is missing"
    let shutdown ← requireWireObject app "shutdown"
      "Desktop TargetRef AppTarget shutdown is missing"
    let workingDirectory ← optionalWireString launch "working_directory"
      "Desktop TargetRef AppTarget launch.working_directory is malformed"
    let titlePattern ← optionalWireString window "title_pattern"
      "Desktop TargetRef AppTarget window.title_pattern is malformed"
    let automationId ← optionalWireString window "automation_id"
      "Desktop TargetRef AppTarget window.automation_id is malformed"
    (readAppTarget app launch process reset shutdown workingDirectory titlePattern
      automationId).mapError fun _ =>
        .protocolViolation "Desktop TargetRef AppTarget is malformed"
  | _ => .error (.protocolViolation "Desktop TargetRef is missing AppTarget fields")

/-- The target as an object; the URL is not checked here. -/
def targetFromWire : JsValue → Read JsValue
  | .obj record => do
    let web := JsValue.field "web" record
    let desktop := JsValue.field "desktop" record
    let selectedKind := match JsValue.field "target" record with
      | .str kind => some kind
      | _ => none
    if selectedKind.any fun kind => kind ≠ "web" ∧ kind ≠ "desktop" then
      .error (.protocolViolation "TargetRef carries an unknown target kind")
    else if isNullish web = isNullish desktop then
      .error (.protocolViolation "TargetRef must carry exactly one target kind")
    else if selectedKind = some "web" ∧ isNullish web then
      .error (.protocolViolation "TargetRef oneof discriminator does not match web payload")
    else if selectedKind = some "desktop" ∧ isNullish desktop then
      .error (.protocolViolation "TargetRef oneof discriminator does not match desktop payload")
    else if !isNullish web then
      return .obj [("kind", .str "web"),
        ("url", .str (asString (JsValue.field "url" (← properties web))))]
    else
      let app ← appTargetFromWire (JsValue.field "app" (← properties desktop))
      return .obj [("kind", .str "desktop"), ("app", app.toValue)]
  | _ => .error (.protocolViolation "TargetRef is missing")

variable (P : Platform)

def policyFromWire : JsValue → Read ExecutionPolicySnapshot
  | .obj policy =>
    match Job.parseExecutionPolicySnapshot P
        (.obj [("policyId", JsValue.field "policy_id" policy),
          ("environment", JsValue.field "environment" policy),
          ("allowedOrigins", JsValue.field "allowed_origins" policy),
          ("allowedActionKinds", JsValue.field "allowed_action_kinds" policy),
          ("maximumRisk", JsValue.field "maximum_risk" policy),
          ("explorationAllowed", JsValue.field "exploration_allowed" policy),
          ("issuedAt", JsValue.field "issued_at" policy),
          ("expiresAt", JsValue.field "expires_at" policy)]) with
    | .ok snapshot => .ok snapshot
    | .error (.appTarget e) => .error (.appTarget e)
    | .error _ => .error (.policyMissing "execution Job policy is missing or malformed")
  | _ => .error (.policyMissing "execution Job policy is missing or malformed")

/-- A text under a key, unless it is empty. -/
def unlessEmpty (key text : String) : List (String × JsValue) :=
  if text = "" then [] else [(key, .str text)]

def planTargetFromWire (wire : JsValue) : Read JsValue := do
  let target ← properties (orEmpty wire)
  return .obj (("purpose", .str (asString (JsValue.field "purpose" target))) ::
    unlessEmpty "role" (asString (JsValue.field "role" target)) ++
    unlessEmpty "name" (asString (JsValue.field "name" target)))

/-- A step as an object; its texts are not checked here. -/
def planStepFromWire (wire : JsValue) : Read JsValue := do
  let step ← properties (orEmpty wire)
  let stepIndex := JsValue.field "step_index" step
  let indexed := if isAbsent stepIndex then [] else [("stepIndex", asNumber stepIndex)]
  let navigate := JsValue.field "navigate" step
  let click := JsValue.field "click" step
  let input := JsValue.field "input" step
  let select := JsValue.field "select" step
  let scroll := JsValue.field "scroll" step
  if !isAbsent navigate then
    return .obj (indexed ++ [("kind", .str "navigate"),
      ("path", .str (asString (JsValue.field "path" (← properties navigate))))])
  else if !isAbsent click then
    let target ← planTargetFromWire (JsValue.field "target" (← properties click))
    return .obj (indexed ++ [("kind", .str "click"), ("target", target)])
  else if !isAbsent input then
    let input ← properties input
    let target ← planTargetFromWire (JsValue.field "target" input)
    return .obj (indexed ++ [("kind", .str "input"), ("target", target),
      ("valueRef", .str (asString (JsValue.field "value_ref" input)))])
  else if !isAbsent select then
    let select ← properties select
    if isAbsent stepIndex then .error .policySnapshot
    else
      let target ← planTargetFromWire (JsValue.field "target" select)
      return .obj (indexed ++ [("kind", .str "select"), ("target", target),
        ("valueRef", .str (asString (JsValue.field "value_ref" select)))])
  else if !isAbsent scroll then
    let scroll ← properties scroll
    if isAbsent stepIndex then .error .policySnapshot
    else
      let wireTarget := JsValue.field "target" scroll
      let target ← if isAbsent wireTarget then pure none
        else some <$> planTargetFromWire wireTarget
      return .obj (indexed ++ ("kind", .str "scroll") :: JsValue.optional "target" target ++
        [("direction", .str (asString (JsValue.field "direction" scroll))),
          ("amount", .str (asString (JsValue.field "amount" scroll)))])
  else
    let verify ← properties (orEmpty (JsValue.field "verify" step))
    match asArray (JsValue.field "claim_ids" verify) with
    | [] => .error .policySnapshot
    | claimIds => return .obj (indexed ++ [("kind", .str "verify"), ("claimIds", .arr claimIds)])

def planFromWire : JsValue → Read (Option JsValue)
  | .undefined | .null => .ok none
  | wire => do
    let plan ← properties wire
    let steps ← (asArray (JsValue.field "steps" plan)).mapM planStepFromWire
    let claims := asArray (JsValue.field "expected_claim_ids" plan)
    if steps = [] ∨ claims = [] then .error .policySnapshot
    else
      let budget ← properties (orEmpty (JsValue.field "budget" plan))
      return some (.obj [("missionId", .str (asString (JsValue.field "mission_id" plan))),
        ("missionRevision", asNumber (JsValue.field "mission_revision" plan)),
        ("testCaseId", .str (asString (JsValue.field "test_case_id" plan))),
        ("steps", .arr steps), ("expectedClaimIds", .arr claims),
        ("budget", .obj [
          ("maximumStepsPerJob", asNumber (JsValue.field "maximum_steps_per_job" budget)),
          ("maximumWallClockMs", asNumber (JsValue.field "maximum_wall_clock_ms" budget)),
          ("maximumModelTokens", asNumber (JsValue.field "maximum_model_tokens" budget))])])

/-- The error of the parser inside `jobFromWire`. -/
def ofJobError : JobError → WireError
  | .policySnapshot | .planPolicy => .policySnapshot
  | .appTarget e => .appTarget e

/-- The error that leaves `jobFromWire`. -/
def malformedJob : WireError → WireError
  | .policySnapshot => .policyMissing "execution Job is malformed"
  | e => e

/-- The reads and the parser inside the `try`. -/
def readJob (wire : List (String × JsValue)) : Read AcceptedExecutionJob := do
  let plan ← planFromWire (JsValue.field "plan" wire)
  let target ← targetFromWire (JsValue.field "target" wire)
  let policy ← policyFromWire P (JsValue.field "policy" wire)
  (parseExecutionJob P (.obj ([("jobId", JsValue.field "job_id" wire),
    ("runId", JsValue.field "run_id" wire), ("projectId", JsValue.field "project_id" wire),
    ("target", target), ("objective", JsValue.field "objective" wire),
    ("policy", policy.toValue)] ++ JsValue.optional "plan" plan))).mapError ofJobError

def jobFromWire (wire : JsValue) : Read AcceptedExecutionJob :=
  (properties wire >>= readJob P).mapError malformedJob

/-- A job that is mapped to the wire, encoded, decoded and mapped back. -/
def carryJob (job : AcceptedExecutionJob) : Read AcceptedExecutionJob :=
  jobFromWire P (Schema.acceptedExecutionJob (jobToWire job))

/-! ## Completions -/

/-- The wire object of a completion. The text of a finding is kept as the value that it
parses to; `JSON.stringify` gives no text for `undefined`. -/
def completionToWire (completion : ExecutionCompletion) : JsValue :=
  .obj ([("job_id", .str completion.jobId), ("run_id", .str completion.runId)] ++
    match completion.status with
    | .passed => [("status", .str "passed")]
    | .finding finding => [("status", .str "finding"), ("finding_json", finding.json)]
    | .blocked errorCode =>
      ("status", .str "blocked") :: JsValue.optional "error_code" (errorCode.map .str)
    | .error errorCode => [("status", .str "error"), ("error_code", .str errorCode)])

/-- The value of a finding text; without a text it is `null`. -/
def findingFromWire : JsValue → JsValue
  | .undefined => .null
  | v => v

def completionFromWire (wire : List (String × JsValue)) : ExecutionCompletion where
  jobId := asString (JsValue.field "job_id" wire)
  runId := asString (JsValue.field "run_id" wire)
  status :=
    let errorCode := asString (JsValue.field "error_code" wire)
    match asString (JsValue.field "status" wire) with
    | "passed" => .passed
    | "finding" => .finding (findingFromWire (JsValue.field "finding_json" wire))
    | "blocked" => .blocked (if errorCode = "" then none else some errorCode)
    | _ => .error errorCode

/-- A completion that is mapped to the wire, encoded, decoded and mapped back. -/
def carryCompletion (completion : ExecutionCompletion) : Read ExecutionCompletion :=
  completionFromWire <$> properties (Schema.completeExecution (completionToWire completion))

end Qualigence.Grpc
