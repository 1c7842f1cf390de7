import Qualigence.Mission.Target

/-! # Missions

An approved plan and a target are compiled into a mission: one job for each test case, under
the budget and the execution policy that intake fixes.
-/

namespace Qualigence.Mission

open Foundation Protocol

/-- `ApprovedExecutionPolicy` has the fields of the policy snapshot of a job. -/
abbrev ApprovedExecutionPolicy := ExecutionPolicySnapshot

inductive StepKind where
  | navigate
  | click
  | input
  | verify
  deriving DecidableEq

def IntentStep.kind : IntentStep → StepKind
  | .navigate _ => .navigate
  | .click _ => .click
  | .input _ _ => .input
  | .verify _ => .verify

def StepKind.text : StepKind → String
  | .navigate => "navigate"
  | .click => "click"
  | .input => "input"
  | .verify => "verify"

structure MissionBudget where
  maximumJobs : ℕ
  maximumStepsPerJob : ℕ
  maximumWallClockMs : ℕ
  maximumModelTokens : ℕ
  deriving DecidableEq

structure TargetCapabilitySummary where
  targetId : String
  targetVersion : ℕ
  targetSnapshotHash : String
  supportedStepKinds : List StepKind
  capabilities : List String
  deriving DecidableEq

structure TestMission where
  missionId : String
  projectId : String
  revision : ℕ
  targetId : String
  executionBudget : MissionBudget
  executionPolicy : ApprovedExecutionPolicy
  deriving DecidableEq

/-- A job of a compiled mission; it starts as queued. -/
structure ExecutionJob where
  jobId : String
  missionId : String
  missionRevision : ℕ
  testCaseId : String
  testCaseSnapshot : TestCase
  targetId : String
  requiredCapabilities : List String
  budget : ExecutionPlanBudget
  idempotencyKey : String
  snapshotHash : String
  deriving DecidableEq

structure CompiledMission where
  missionId : String
  missionRevision : ℕ
  projectId : String
  planId : String
  planVersion : ℕ
  planSnapshotHash : String
  targetId : String
  targetVersion : ℕ
  targetSnapshotHash : String
  executionPolicy : ApprovedExecutionPolicy
  jobs : NonEmptyList ExecutionJob
  compiledHash : String
  deriving DecidableEq

inductive MissionErrorCode where
  | planNotApproved
  | missionProjectMismatch
  | targetCapabilityMismatch
  | missionBudgetExceeded
  deriving DecidableEq

structure MissionError where
  code : MissionErrorCode
  message : String
  deriving DecidableEq

abbrev Compiling (α : Type) := Except MissionError α

def refuse {α : Type} (code : MissionErrorCode) (message : String) : Compiling α :=
  .error ⟨code, message⟩

/-! ## The policy -/

section Policy

variable (P : Platform)

def checkOrigin (origin : String) : Except String Unit :=
  if origin.toList.contains '*' then
    .error "Execution policy origin must not contain a wildcard."
  else match P.newUrl origin with
  | none => .error "Invalid URL"
  | some parsed =>
    if (parsed.protocol ≠ "http:" ∧ parsed.protocol ≠ "https:") ∨ parsed.origin ≠ origin ∨
        parsed.username ≠ "" ∨ parsed.password ≠ "" then
      .error "Execution policy origin must be canonical HTTP(S) without credentials."
    else .ok ()

def parseCanonicalInstant (value : Timestamp) : Except String Int :=
  match parseInstant value with
  | some ms =>
    if toISOString ms = value then .ok ms else .error "Execution policy instant is invalid."
  | none => .error "Execution policy instant is invalid."

/-- The check of a policy against the wall clock of its mission. The kinds, the risk and the
environment are of the types that the source checks them to be. -/
def validateApprovedExecutionPolicy (policy : ApprovedExecutionPolicy)
    (maximumWallClockMs : ℕ) : Except String Unit := do
  if isBlank policy.policyId ∨ policy.allowedOrigins = [] ∨ policy.allowedActionKinds = [] then
    .error "Execution policy authority values are invalid."
  else
    let issued ← parseCanonicalInstant policy.issuedAt
    let expires ← parseCanonicalInstant policy.expiresAt
    if expires ≤ issued then .error "Execution policy expiry must be after issue time."
    else if Job.maxSafeInteger < maximumWallClockMs ∨ maximumWallClockMs = 0 ∨
        issued + maximumWallClockMs < expires then
      .error "Execution policy exceeds the Mission execution budget."
    else if ¬ policy.allowedOrigins.Nodup ∨ ¬ policy.allowedActionKinds.Nodup then
      .error "Execution policy authority values must not contain duplicates."
    else
      policy.allowedOrigins.forM (checkOrigin P)
      if policy.environment = .staging ∧ (policy.allowedActionKinds ≠ [.click] ∨
          policy.maximumRisk ≠ .normal ∨ policy.explorationAllowed = true) then
        .error "Staging policy must be an explicit bounded click-only declaration."
      else .ok ()

end Policy

/-! ## The compiler -/

def webPlaywrightTargetCapability : String := "target:web-playwright"

def webObservationV1RequiredCapabilities : List String :=
  ["observation:observation-graph/v1", "observation:web/v1"]

def capabilityForStep : StepKind → String
  | .navigate => "action:navigate"
  | .click => "action:click"
  | .input => "action:input"
  | .verify => "model:structured-output"

/-- The capabilities of a test case, each once and sorted. -/
def requiredCapabilities (testCase : TestCase) (target : TargetCapabilitySummary) :
    Compiling (List String) :=
  match target.capabilities.filter fun capability =>
      capability.toList.take 7 = "target:".toList with
  | [targetCapability] =>
    .ok ((targetCapability ::
      (if targetCapability = webPlaywrightTargetCapability then
        webObservationV1RequiredCapabilities else []) ++ "model:structured-output" ::
      testCase.steps.toList.map fun step => capabilityForStep step.kind).eraseDups.insertionSort
        fun a b => utf16Le a b)
  | _ => refuse .targetCapabilityMismatch
    "Target must declare exactly one Runner target capability."

def budgetValue (budget : ExecutionPlanBudget) : JsValue :=
  .obj [("maximumStepsPerJob", .int budget.maximumStepsPerJob),
    ("maximumWallClockMs", .int budget.maximumWallClockMs),
    ("maximumModelTokens", .int budget.maximumModelTokens)]

section Compile

variable (P : Platform)

def testPlanSnapshotHash (plan : TestPlanRevision) : String := P.hashText plan.toValue

def compileJob (mission : TestMission) (target : TargetCapabilitySummary)
    (testCase : TestCase) : Compiling ExecutionJob :=
  if mission.executionBudget.maximumStepsPerJob < testCase.steps.toList.length then
    refuse .missionBudgetExceeded
      ("Test case " ++ testCase.id ++ " exceeds the per-job step budget.")
  else match testCase.steps.toList.find? fun step =>
      !target.supportedStepKinds.contains step.kind with
  | some step => refuse .targetCapabilityMismatch ("Target " ++ target.targetId ++
      " does not support step kind \"" ++ step.kind.text ++ "\".")
  | none => do
    let capabilities ← requiredCapabilities testCase target
    let idempotencyKey := mission.missionId ++ ":" ++ toString mission.revision ++ ":" ++
      testCase.id
    .ok { jobId := shortHash P idempotencyKey
          missionId := mission.missionId, missionRevision := mission.revision
          testCaseId := testCase.id, testCaseSnapshot := testCase
          targetId := mission.targetId, requiredCapabilities := capabilities
          budget := ⟨mission.executionBudget.maximumStepsPerJob,
            mission.executionBudget.maximumWallClockMs,
            mission.executionBudget.maximumModelTokens⟩
          idempotencyKey, snapshotHash := P.hashCanonical testCase.toValue }

def compiledHash (plan : TestPlanRevision) (mission : TestMission)
    (target : TargetCapabilitySummary) (jobs : List ExecutionJob) : String :=
  P.hashCanonical (.obj [("missionId", .str mission.missionId),
    ("missionRevision", .int mission.revision), ("projectId", .str mission.projectId),
    ("planId", .str plan.planId), ("planVersion", .int plan.version),
    ("planSnapshotHash", .str (testPlanSnapshotHash P plan)),
    ("targetId", .str mission.targetId), ("targetVersion", .int target.targetVersion),
    ("targetSnapshotHash", .str target.targetSnapshotHash),
    ("jobs", .arr (jobs.map fun job => .obj [("jobId", .str job.jobId),
      ("testCaseId", .str job.testCaseId), ("idempotencyKey", .str job.idempotencyKey),
      ("requiredCapabilities", AppTarget.strings job.requiredCapabilities),
      ("budget", budgetValue job.budget), ("executionPolicy", mission.executionPolicy.toValue),
      ("snapshotHash", .str job.snapshotHash)]))])

def compile (plan : TestPlanRevision) (mission : TestMission)
    (target : TargetCapabilitySummary) : Compiling CompiledMission :=
  if plan.status ≠ .approved then
    refuse .planNotApproved ("Plan " ++ plan.planId ++ " must be approved before compilation.")
  else if isBlank mission.projectId ∨ plan.projectId ≠ mission.projectId then
    refuse .missionProjectMismatch "Mission project provenance must match the approved Plan."
  else if mission.executionBudget.maximumJobs < plan.testCases.toList.length then
    refuse .missionBudgetExceeded ("Plan has " ++ toString plan.testCases.toList.length ++
      " test cases but the budget allows " ++ toString mission.executionBudget.maximumJobs ++ ".")
  else match validateApprovedExecutionPolicy P mission.executionPolicy
      mission.executionBudget.maximumWallClockMs with
  | .error message => refuse .missionBudgetExceeded message
  | .ok () => do
    let first ← compileJob P mission target plan.testCases.first
    let rest ← plan.testCases.rest.mapM (compileJob P mission target)
    .ok { missionId := mission.missionId, missionRevision := mission.revision
          projectId := mission.projectId, planId := plan.planId, planVersion := plan.version
          planSnapshotHash := testPlanSnapshotHash P plan, targetId := mission.targetId
          targetVersion := target.targetVersion
          targetSnapshotHash := target.targetSnapshotHash
          executionPolicy := mission.executionPolicy, jobs := ⟨first, rest⟩
          compiledHash := compiledHash P plan mission target (first :: rest) }

end Compile

/-! ## Intake -/

structure MissionBinding where
  targetId : String
  targetVersion : ℕ
  targetSnapshotHash : String
  runnerId : String
  planVersion : ℕ
  planSnapshotHash : String
  configuration : TargetConfiguration
  deriving DecidableEq

structure MissionDispatchDescriptor where
  targetUrl : String
  modelProfileId : String
  headed : Bool
  navigationTimeoutMs : ℕ
  actionTimeoutMs : ℕ
  binding : Option MissionBinding
  deriving DecidableEq

structure SaveCompiledMissionInput where
  mission : CompiledMission
  projectId : String
  planId : String
  prdId : String
  prdRevision : Int
  dispatch : MissionDispatchDescriptor
  stopOnBlockedTestCase : Bool
  deriving DecidableEq

structure CreateMissionCommand where
  projectId : String
  targetId : String
  targetVersion : ℕ
  targetSnapshotHash : String
  planId : String
  planVersion : ℕ
  idempotencyKey : String
  deriving DecidableEq

/-- `MissionIntakeError` with its codes, and the other errors that leave intake. -/
inductive IntakeError where
  | missionInputNotFound (message : String)
  | missionInputMismatch (message : String)
  | missionIdempotencyConflict (message : String) (currentVersion : ℕ)
  | missionCompilationFailed (message : String)
  | invalidUrl
  | invalidDate
  | provenanceMismatch
  deriving DecidableEq

abbrev Intake (α : Type) := Except IntakeError α

def missionIdOf (P : Platform) (key : String) : String :=
  shortHash P ("mission\u0000" ++ key)

def supportedKinds (target : TargetRevision) : List StepKind :=
  match target.configuration with
  | .web _ => [.navigate, .click, .input, .verify]
  | .desktop _ => [.click, .input, .verify]

def approvedPolicy (target : TargetRevision) (issuedAt : Timestamp) (maximumWallClockMs : ℕ) :
    Intake ApprovedExecutionPolicy :=
  match parseInstant issuedAt with
  | none => .error .invalidDate
  | some ms => .ok {
      policyId := "target:" ++ target.targetId ++ ":" ++ toString target.version ++ ":" ++
        target.snapshotHash
      environment := .isolatedTest
      allowedOrigins := match target.configuration with
        | .web c => c.allowedOrigins
        | .desktop _ => ["https://desktop.invalid"]
      allowedActionKinds := match target.configuration with
        | .web _ => [.navigate, .click, .input]
        | .desktop _ => [.click, .input]
      maximumRisk := .normal
      explorationAllowed := false
      issuedAt := issuedAt
      expiresAt := toISOString (ms + maximumWallClockMs) }

def maximumWallClockMs : ℕ := 60000

section Create

variable (P : Platform)

/-- A web target starts at one of its allowed origins. -/
def checkStartUrl (target : TargetRevision) : Intake Unit :=
  match target.configuration with
  | .desktop _ => .ok ()
  | .web c => match P.newUrl c.startUrl with
    | none => .error .invalidUrl
    | some url =>
      if c.allowedOrigins.contains url.origin then .ok ()
      else .error (.missionInputMismatch "Web Target startUrl origin is not allowed")

def testMission (command : CreateMissionCommand) (target : TargetRevision)
    (plan : TestPlanRevision) (policy : ApprovedExecutionPolicy) : TestMission where
  missionId := missionIdOf P command.idempotencyKey
  projectId := command.projectId
  revision := 1
  targetId := target.targetId
  executionBudget := ⟨plan.testCases.toList.length, 100, maximumWallClockMs, 100000⟩
  executionPolicy := policy

def capabilitySummary (target : TargetRevision) : TargetCapabilitySummary where
  targetId := target.targetId
  targetVersion := target.version
  targetSnapshotHash := target.snapshotHash
  supportedStepKinds := supportedKinds target
  capabilities := match target.configuration with
    | .web _ => ["target:web-playwright"]
    | .desktop _ => ["target:desktop-windows-uia"]

def dispatchDescriptor (target : TargetRevision) (plan : TestPlanRevision) :
    MissionDispatchDescriptor where
  targetUrl := match target.configuration with
    | .web c => c.startUrl
    | .desktop _ => "https://desktop.invalid/"
  modelProfileId := "default"
  headed := match target.configuration with
    | .web _ => false
    | .desktop _ => true
  navigationTimeoutMs := 30000
  actionTimeoutMs := 10000
  binding := some {
    targetId := target.targetId, targetVersion := target.version
    targetSnapshotHash := target.snapshotHash, runnerId := target.runnerId
    planVersion := plan.version, planSnapshotHash := testPlanSnapshotHash P plan
    configuration := target.configuration }

/-- The mission that intake saves for the target and the plan that its command names. -/
def intakeMission (now : Timestamp) (command : CreateMissionCommand)
    (target : Option TargetRevision) (plan : Option TestPlanRevision) :
    Intake SaveCompiledMissionInput :=
  match target, plan with
  | some target, some plan =>
    if plan.status ≠ .approved then
      .error (.missionInputNotFound "approved Target and Test Plan revisions are required")
    else if target.projectId ≠ command.projectId ∨ plan.projectId ≠ command.projectId ∨
        target.snapshotHash ≠ command.targetSnapshotHash then
      .error (.missionInputMismatch "Mission input provenance does not match")
    else do
      checkStartUrl P target
      let policy ← approvedPolicy target now maximumWallClockMs
      let mission ← (compile P plan (testMission P command target plan policy)
        (capabilitySummary target)).mapError fun e => .missionCompilationFailed e.message
      .ok { mission, projectId := command.projectId, planId := plan.planId
            prdId := plan.prdId, prdRevision := plan.prdRevision
            dispatch := dispatchDescriptor P target plan, stopOnBlockedTestCase := true }
  | _, _ => .error (.missionInputNotFound "approved Target and Test Plan revisions are required")

end Create

end Qualigence.Mission
