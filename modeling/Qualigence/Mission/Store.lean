import Qualigence.Foundation.Table
import Qualigence.Mission.Intake

/-! # The mission store

Documents, plans, targets, missions and their dispatch outbox as keyed tables. A writing
method is one immediate transaction: its body works on a copy of the database, which
becomes the database when the body ends and is dropped when the body throws. The JSON
columns are kept as the values that they denote.
-/

namespace Qualigence.Mission

open Foundation Protocol

/-! ## Rows -/

structure PlanRow where
  idempotencyKey : String
  plan : TestPlanRevision

structure PlanHeadRow where
  planId : String
  currentVersion : ℕ

structure TargetRow where
  idempotencyKey : String
  revision : TargetRevision

structure TargetHeadRow where
  targetId : String
  projectId : String
  currentVersion : ℕ

inductive MissionStatus where
  | draft
  | approved
  | running
  | completed
  | blocked
  deriving DecidableEq

structure MissionRow where
  missionId : String
  revision : ℕ
  projectId : String
  planId : String
  prdId : String
  prdRevision : Int
  targetId : String
  compiledHash : String
  status : MissionStatus
  dispatch : MissionDispatchDescriptor
  stopOnBlocked : Bool
  deriving DecidableEq

structure MissionRevisionRow where
  missionId : String
  revision : ℕ
  compiled : CompiledMission

structure SchedulingHeadRow where
  missionId : String
  missionRevision : ℕ
  version : ℕ
  compiledHash : String
  deriving DecidableEq

/-- A row of `execution_jobs`; its status is not looked at here. -/
structure ExecutionJobRow where
  jobId : String
  missionId : String
  missionRevision : ℕ
  testCaseId : String
  objective : String
  requiredCapabilities : List String
  snapshotHash : String
  snapshot : TestCase

structure ScheduledRunIdentity where
  logicalJobId : String
  attemptId : String
  runnerJobId : String
  runId : String
  deriving DecidableEq

/-- The result of a start; its status is always `running`. -/
structure ScheduledMission where
  missionId : String
  missionRevision : ℕ
  missionVersion : ℕ
  runs : List ScheduledRunIdentity
  deriving DecidableEq

structure StartCommandRow where
  idempotencyKey : String
  commandHash : String
  missionId : String
  expectedMissionVersion : ℕ
  missionRevision : ℕ
  missionCompiledHash : String
  result : ScheduledMission
  createdAt : Timestamp

structure ExecutionRunRow where
  runId : String
  jobId : String
  objective : String

inductive AttemptStatus where
  | pendingDispatch
  | accepted
  | passed
  | finding
  | blocked
  | error
  deriving DecidableEq

structure AttemptRow where
  attemptId : String
  missionId : String
  missionRevision : ℕ
  logicalJobId : String
  runnerJobId : String
  runId : String
  status : AttemptStatus

structure RunnerJobRow where
  runnerJobId : String
  attemptId : String
  runnerId : String
  acceptedJob : JsValue

inductive ReceiptStatus where
  | accepted
  | alreadyActive
  deriving DecidableEq

structure MissionDispatchAcceptanceReceipt where
  status : ReceiptStatus
  jobId : String
  runId : String
  acceptedAt : Timestamp
  deriving DecidableEq

inductive DispatchStatus where
  | pending
  | accepted
  | blocked
  deriving DecidableEq

structure OutboxRow where
  attemptId : String
  missionId : String
  runnerId : String
  runnerJobId : String
  runId : String
  idempotencyKey : String
  requiredCapabilities : JsValue
  acceptedJob : JsValue
  status : DispatchStatus
  version : ℕ
  acceptedAt : Option Timestamp
  acceptanceReceipt : Option MissionDispatchAcceptanceReceipt
  createdAt : Timestamp
  deriving DecidableEq

structure WakeupRow where
  wakeupId : String
  generation : ℕ

def PrdDocument.key (d : PrdDocument) : String × Int := (d.prdId, d.revision)
def PlanRow.key (r : PlanRow) : String × ℕ := (r.plan.planId, r.plan.version)
def TargetRow.key (r : TargetRow) : String × ℕ := (r.revision.targetId, r.revision.version)
def MissionRow.key (r : MissionRow) : String × ℕ := (r.missionId, r.revision)
def MissionRevisionRow.key (r : MissionRevisionRow) : String × ℕ := (r.missionId, r.revision)

structure MissionDb where
  documents : Table PrdDocument PrdDocument.key
  plans : Table PlanRow PlanRow.key
  planHeads : Table PlanHeadRow (·.planId)
  targets : Table TargetRow TargetRow.key
  targetHeads : Table TargetHeadRow (·.targetId)
  missions : Table MissionRow MissionRow.key
  missionRevisions : Table MissionRevisionRow MissionRevisionRow.key
  schedulingHeads : Table SchedulingHeadRow (·.missionId)
  jobs : Table ExecutionJobRow (·.jobId)
  startCommands : Table StartCommandRow (·.idempotencyKey)
  runs : Table ExecutionRunRow (·.runId)
  attempts : Table AttemptRow (·.attemptId)
  runnerJobs : Table RunnerJobRow (·.runnerJobId)
  outbox : Table OutboxRow (·.attemptId)
  wakeups : Table WakeupRow (·.wakeupId)

def MissionDb.empty : MissionDb where
  documents := .empty
  plans := .empty
  planHeads := .empty
  targets := .empty
  targetHeads := .empty
  missions := .empty
  missionRevisions := .empty
  schedulingHeads := .empty
  jobs := .empty
  startCommands := .empty
  runs := .empty
  attempts := .empty
  runnerJobs := .empty
  outbox := .empty
  wakeups := .empty

/-- The outcome of a transaction: a throwing body leaves the database as it was. -/
def transact {ε α : Type} (body : MissionDb → Except ε (α × MissionDb)) (db : MissionDb) :
    Except ε α × MissionDb :=
  match body db with
  | .ok (a, db') => (.ok a, db')
  | .error e => (.error e, db)

/-! ## Plans -/

section Plans

variable (P : PlanningPlatform)

/-- The plan of a version, or the latest one. -/
def latestPlan (db : MissionDb) (planId : String) : Option TestPlanRevision :=
  ((db.plans.rows.filter fun r => r.plan.planId = planId).foldl (fun best r =>
    match best with
    | some b => if b.version < r.plan.version then some r.plan else some b
    | none => some r.plan) none)

def getPlan (db : MissionDb) (planId : String) (version : ℕ) : Option TestPlanRevision :=
  (db.plans.get (planId, version)).map (·.plan)

def planOfKey (db : MissionDb) (idempotencyKey : String) : Option TestPlanRevision :=
  (db.plans.rows.find? fun r => r.idempotencyKey = idempotencyKey).map (·.plan)

def saveDraft (plan : TestPlanRevision) (idempotencyKey : String) (db : MissionDb) :
    Planning (TestPlanRevision × MissionDb) :=
  match db.documents.get (plan.prdId, plan.prdRevision) with
  | none => .error (.idempotencyConflict 0)
  | some document =>
    if document.projectId ≠ plan.projectId then .error (.idempotencyConflict 0)
    else match planOfKey db idempotencyKey with
    | some stored =>
      if stored.toValue ≠ plan.toValue then .error (.idempotencyConflict stored.version)
      else .ok (stored, db)
    | none => match db.planHeads.get plan.planId with
      | some head => .error (.planVersionConflict head.currentVersion)
      | none =>
        match db.planHeads.insert ⟨plan.planId, plan.version⟩,
            db.plans.insert ⟨idempotencyKey, plan⟩ with
        | some planHeads, some plans => .ok (plan, { db with planHeads, plans })
        | _, _ => .error (.constraintViolation "test_plan_version_revisions")

structure CreateTestPlanCommand where
  projectId : String
  prdId : String
  prdRevision : Int
  sourceContentSha256 : String
  proposal : JsValue
  idempotencyKey : String

/-- The draft that `create` makes of a command. -/
def draftOf (db : MissionDb) (command : CreateTestPlanCommand) : Planning TestPlanRevision :=
  match db.documents.get (command.prdId, command.prdRevision) with
  | none => .error (.service .prdSourceMismatch "PRD revision was not found")
  | some document =>
    if document.projectId ≠ command.projectId then
      .error (.service .planProjectMismatch "PRD project does not match the command")
    else if document.contentSha256 ≠ command.sourceContentSha256 then
      .error (.service .prdSourceMismatch "PRD content hash does not match the selected revision")
    else do
      let proposal ← parseProposal command.proposal
      let validated ← (validate P document proposal).mapError fun e => .service e.code e.message
      createDraftTestPlan command.projectId command.prdId command.prdRevision validated
        (deterministicId P.toPlatform command.idempotencyKey)

/-- `TestPlanService.create`. The document it reads is never changed, so that the draft and
its saving read the same. -/
def createPlan (command : CreateTestPlanCommand) (db : MissionDb) :
    Planning (TestPlanRevision × MissionDb) := do
  let draft ← draftOf P db command
  saveDraft draft command.idempotencyKey db

def approveStored (command : ApproveTestPlanInput) (now : Timestamp) (db : MissionDb) :
    Planning (TestPlanRevision × MissionDb) :=
  match planOfKey db command.idempotencyKey with
  | some stored =>
    if stored.planId ≠ command.planId ∨ stored.version ≠ command.expectedVersion + 1 ∨
        stored.approval.map (·.reviewerId) ≠ some command.reviewerId then
      .error (.idempotencyConflict stored.version)
    else .ok (stored, db)
  | none => match latestPlan db command.planId with
    | none => .error (.planVersionConflict 0)
    | some current =>
      if current.status = .approved ∧
          current.approval.map (·.idempotencyKey) ≠ some command.idempotencyKey then
        .error (.planVersionConflict current.version)
      else match approveTestPlan current command now with
      | .error .planAlreadyApproved => .error (.planAlreadyApproved current.version)
      | .error .planVersionConflict => .error (.planVersionConflict current.version)
      | .ok approved =>
        match db.plans.insert ⟨command.idempotencyKey, approved⟩ with
        | none => .error (.constraintViolation "test_plan_version_revisions")
        | some plans =>
          let selects : PlanHeadRow → Bool := fun r =>
            r.planId = command.planId ∧ r.currentVersion = command.expectedVersion
          if db.planHeads.count selects ≠ 1 then .error (.planVersionConflict current.version)
          else .ok (approved, { db with
            plans := plans
            planHeads := db.planHeads.update selects
              (fun r => { r with currentVersion := approved.version }) fun _ => rfl })

/-- `TestPlanService.approve`: the stored plan is validated once more. -/
def approvePlan (command : ApproveTestPlanInput) (now : Timestamp) (db : MissionDb) :
    Planning (TestPlanRevision × MissionDb) :=
  match latestPlan db command.planId with
  | none => .error (.service .planNotFound "Test Plan was not found")
  | some plan => match db.documents.get (plan.prdId, plan.prdRevision) with
    | none => .error (.service .prdSourceMismatch "Test Plan PRD provenance is unavailable")
    | some document =>
      if document.projectId ≠ plan.projectId then
        .error (.service .prdSourceMismatch "Test Plan PRD provenance is unavailable")
      else do
        let _ ← (validate P document (proposalFromPlan plan)).mapError fun e =>
          PlanError.service e.code e.message
        approveStored command now db

end Plans

/-! ## Targets -/

inductive SaveTargetError where
  | project (error : ProjectTargetError)
  | targetIdempotencyConflict (currentVersion : ℕ)
  | targetVersionConflict (currentVersion : ℕ)
  | inconsistentProvenance
  | constraintViolation (table : String)
  deriving DecidableEq

/-- The head of a target after a new revision. -/
def advanceTargetHead (revision : TargetRevision) (head : Option TargetHeadRow)
    (heads : Table TargetHeadRow (·.targetId)) :
    Except SaveTargetError (Table TargetHeadRow (·.targetId)) :=
  match head with
  | some _ => .ok (heads.update (fun r => r.targetId = revision.targetId)
      (fun r => { r with currentVersion := revision.version }) fun _ => rfl)
  | none =>
    match heads.insert ⟨revision.targetId, revision.projectId, revision.version⟩ with
    | some heads => .ok heads
    | none => .error (.constraintViolation "project_targets")

def saveTarget (revision : TargetRevision) (expectedVersion : Int) (idempotencyKey : String)
    (db : MissionDb) : Except SaveTargetError (TargetRevision × MissionDb) :=
  match db.targets.rows.find? fun r => r.idempotencyKey = idempotencyKey with
  | some replay =>
    if replay.revision.snapshotHash ≠ revision.snapshotHash then
      .error (.targetIdempotencyConflict replay.revision.version)
    else .ok (replay.revision, db)
  | none =>
    let head := db.targetHeads.get revision.targetId
    let currentVersion : ℕ := (head.map (·.currentVersion)).getD 0
    if (currentVersion : Int) ≠ expectedVersion then
      .error (.targetVersionConflict currentVersion)
    else if revision.version ≠ currentVersion + 1 ∨
        head.any fun h => h.projectId ≠ revision.projectId then
      .error .inconsistentProvenance
    else do
      let targetHeads ← advanceTargetHead revision head db.targetHeads
      match db.targets.insert ⟨idempotencyKey, revision⟩ with
      | some targets => .ok (revision, { db with targetHeads, targets })
      | none => .error (.constraintViolation "target_revisions")

/-- `ProjectTargetService.createRevision`. -/
def createTarget (P : PlanningPlatform) (input : CreateTargetRevisionInput)
    (idempotencyKey : String) (db : MissionDb) :
    Except SaveTargetError (TargetRevision × MissionDb) := do
  let revision ← (createTargetRevision P input).mapError .project
  saveTarget revision input.expectedVersion idempotencyKey db

/-! ## Missions -/

/-- The row of the greatest revision of a mission. -/
def currentMission (db : MissionDb) (missionId : String) : Option MissionRow :=
  (db.missions.rows.filter fun r => r.missionId = missionId).foldl (fun best r =>
    match best with
    | some b => if b.revision < r.revision then some r else some b
    | none => some r) none

/-- Append the rows whose keys are free; the others are left out. -/
def insertFresh {ρ κ : Type} [DecidableEq κ] {key : ρ → κ} (t : Table ρ key) (rows : List ρ) :
    Table ρ key :=
  rows.foldl (fun t r => (t.insert r).getD t) t

def jobRow (job : ExecutionJob) : ExecutionJobRow where
  jobId := job.jobId
  missionId := job.missionId
  missionRevision := job.missionRevision
  testCaseId := job.testCaseId
  objective := job.testCaseSnapshot.objective
  requiredCapabilities := job.requiredCapabilities
  snapshotHash := job.snapshotHash
  snapshot := job.testCaseSnapshot

def missionRow (input : SaveCompiledMissionInput) : MissionRow where
  missionId := input.mission.missionId
  revision := input.mission.missionRevision
  projectId := input.projectId
  planId := input.planId
  prdId := input.prdId
  prdRevision := input.prdRevision
  targetId := input.mission.targetId
  compiledHash := input.mission.compiledHash
  status := .approved
  dispatch := input.dispatch
  stopOnBlocked := input.stopOnBlockedTestCase

/-- The compiled mission belongs to the scope that it is saved in. -/
def provenanceMatches (input : SaveCompiledMissionInput) : Bool :=
  input.mission.projectId = input.projectId ∧ input.mission.planId = input.planId ∧
    input.dispatch.binding.any fun binding =>
      input.mission.targetId = binding.targetId ∧
        input.mission.planVersion = binding.planVersion ∧
        input.mission.planSnapshotHash = binding.planSnapshotHash ∧
        input.mission.targetVersion = binding.targetVersion ∧
        input.mission.targetSnapshotHash = binding.targetSnapshotHash

/-- Nothing is written for a mission that is already there. -/
def saveCompiledMission (input : SaveCompiledMissionInput) (db : MissionDb) : Intake MissionDb :=
  if ¬ provenanceMatches input then .error .provenanceMismatch
  else match db.missions.insert (missionRow input) with
  | none => .ok db
  | some missions => .ok { db with
      missions := missions
      missionRevisions := insertFresh db.missionRevisions
        [⟨input.mission.missionId, input.mission.missionRevision, input.mission⟩]
      schedulingHeads := insertFresh db.schedulingHeads
        [⟨input.mission.missionId, input.mission.missionRevision, 1, input.mission.compiledHash⟩]
      jobs := insertFresh db.jobs (input.mission.jobs.toList.map jobRow) }

/-- A mission of the same idempotency key is the same command. -/
def assertCommandBinding (mission : MissionRow) (command : CreateMissionCommand) : Intake Unit :=
  match mission.dispatch.binding with
  | none => .error (.missionInputMismatch "Mission binding snapshot is missing")
  | some binding =>
    if mission.projectId ≠ command.projectId ∨ mission.planId ≠ command.planId ∨
        binding.targetId ≠ command.targetId ∨ binding.targetVersion ≠ command.targetVersion ∨
        binding.targetSnapshotHash ≠ command.targetSnapshotHash ∨
        binding.planVersion ≠ command.planVersion then
      .error (.missionIdempotencyConflict "idempotency key is bound to another Mission command"
        mission.revision)
    else .ok ()

/-- `MissionIntakeService.create`: the mission of its key, or a new one. -/
def createMission (P : PlanningPlatform) (now : Timestamp) (command : CreateMissionCommand)
    (db : MissionDb) : Intake (MissionRow × MissionDb) :=
  match currentMission db (missionIdOf P.toPlatform command.idempotencyKey) with
  | some existing => do
    assertCommandBinding existing command
    .ok (existing, db)
  | none => do
    let target := (db.targets.get (command.targetId, command.targetVersion)).map (·.revision)
    let plan := getPlan db command.planId command.planVersion
    let input ← intakeMission P.toPlatform now command target plan
    let db' ← saveCompiledMission input db
    match currentMission db' input.mission.missionId with
    | none => .error (.missionCompilationFailed "persisted Mission winner is unavailable")
    | some persisted =>
      assertCommandBinding persisted command
      .ok (persisted, db')

/-! ## Scheduling -/

structure StartMissionCommand where
  missionId : String
  expectedVersion : ℕ
  idempotencyKey : String
  deriving DecidableEq

inductive MissionSchedulingErrorCode where
  | missionNotFound
  | idempotencyConflict
  | missionVersionConflict
  | missionRevisionConflict
  | missionHashConflict
  | missionStatusConflict
  | planVersionConflict
  | planHashConflict
  | planStatusConflict
  | missionDispatchNotFound
  | missionDispatchVersionConflict
  | missionDispatchReceiptConflict
  deriving DecidableEq

/-- `MissionSchedulingError`, a violated constraint, or a plain error of the store. -/
inductive ScheduleError where
  | scheduling (code : MissionSchedulingErrorCode) (actualVersion : Option ℕ)
  | constraintViolation (table : String)
  | error (message : String)
  deriving DecidableEq

abbrev Scheduling (α : Type) := Except ScheduleError α

def conflict {α : Type} (code : MissionSchedulingErrorCode) (actualVersion : Option ℕ) :
    Scheduling α :=
  .error (.scheduling code actualVersion)

def missionStartCommandHash (P : Platform) (command : StartMissionCommand) : String :=
  P.sha256 (command.missionId ++ "\u0000" ++ toString command.expectedVersion ++ "\u0000" ++
    command.idempotencyKey)

/-- A job of the snapshot that a mission is scheduled from. -/
structure SchedulingMissionJob where
  jobId : String
  testCaseId : String
  objective : String
  requiredCapabilities : List String
  snapshotHash : String
  snapshot : TestCase
  budget : ExecutionPlanBudget
  deriving DecidableEq

structure SchedulingMission where
  missionId : String
  missionRevision : ℕ
  missionVersion : ℕ
  compiledHash : String
  projectId : String
  planId : String
  planVersion : ℕ
  planSnapshotHash : String
  targetVersion : ℕ
  targetSnapshotHash : String
  dispatch : MissionDispatchDescriptor
  executionPolicy : ApprovedExecutionPolicy
  jobs : List SchedulingMissionJob
  deriving DecidableEq

def schedulingJob (compiled : CompiledMission) (row : ExecutionJobRow) :
    Scheduling SchedulingMissionJob :=
  match compiled.jobs.toList.find? fun job => job.jobId = row.jobId with
  | none => .error (.error ("Missing compiled Job " ++ row.jobId ++ "."))
  | some job => .ok {
      jobId := row.jobId, testCaseId := row.testCaseId, objective := row.objective
      requiredCapabilities := row.requiredCapabilities, snapshotHash := row.snapshotHash
      snapshot := row.snapshot, budget := job.budget }

/-- The jobs of a revision of a mission, by their ids. -/
def jobsOf (db : MissionDb) (missionId : String) (revision : ℕ) : List ExecutionJobRow :=
  (db.jobs.rows.filter fun r =>
    r.missionId = missionId ∧ r.missionRevision = revision).insertionSort
      fun a b => a.jobId ≤ b.jobId

def loadMissionForScheduling (db : MissionDb) (missionId : String) :
    Scheduling (Option SchedulingMission) :=
  match currentMission db missionId with
  | none => .ok none
  | some mission => match db.missionRevisions.get (missionId, mission.revision) with
    | none => .error (.error "no result")
    | some revision => do
      let jobs ← (jobsOf db missionId mission.revision).mapM (schedulingJob revision.compiled)
      .ok (some {
        missionId, missionRevision := mission.revision
        missionVersion := ((db.schedulingHeads.get missionId).map (·.version)).getD 1
        compiledHash := mission.compiledHash, projectId := mission.projectId
        planId := mission.planId, planVersion := revision.compiled.planVersion
        planSnapshotHash := revision.compiled.planSnapshotHash
        targetVersion := revision.compiled.targetVersion
        targetSnapshotHash := revision.compiled.targetSnapshotHash
        dispatch := mission.dispatch, executionPolicy := revision.compiled.executionPolicy
        jobs })

/-- The plan part of a job; its steps have no indices. -/
structure AcceptedMissionPlan where
  missionId : String
  missionRevision : ℕ
  testCaseId : String
  steps : NonEmptyList IntentStep
  expectedClaimIds : NonEmptyList String
  budget : ExecutionPlanBudget
  deriving DecidableEq

structure AcceptedMissionExecutionJob where
  jobId : String
  runId : String
  projectId : String
  target : TargetRef
  objective : String
  policy : ApprovedExecutionPolicy
  plan : AcceptedMissionPlan
  deriving DecidableEq

def AcceptedMissionPlan.toValue (plan : AcceptedMissionPlan) : JsValue :=
  .obj [("missionId", .str plan.missionId), ("missionRevision", .int plan.missionRevision),
    ("testCaseId", .str plan.testCaseId),
    ("steps", .arr (plan.steps.toList.map (·.toValue))),
    ("expectedClaimIds", AppTarget.strings plan.expectedClaimIds.toList),
    ("budget", budgetValue plan.budget)]

def AcceptedMissionExecutionJob.toValue (job : AcceptedMissionExecutionJob) : JsValue :=
  .obj [("jobId", .str job.jobId), ("runId", .str job.runId),
    ("projectId", .str job.projectId), ("target", job.target.toValue),
    ("objective", .str job.objective), ("policy", job.policy.toValue),
    ("plan", job.plan.toValue)]

structure ScheduleMissionJob where
  logicalJobId : String
  attemptId : String
  runnerId : String
  requiredCapabilities : List String
  job : AcceptedMissionExecutionJob
  deriving DecidableEq

/-- The identities that are allocated for one job. -/
structure AllocatedIds where
  attemptId : String
  runnerJobId : String
  runId : String
  deriving DecidableEq

def desktopUiaV1RequiredCapabilities : List String :=
  ["target:desktop-windows-uia", "observation:observation-graph/v1", "observation:uia/v1"]

def missionTargetRef (targetUrl : String) : TargetConfiguration → TargetRef
  | .web _ => .web targetUrl
  | .desktop app => .desktop app

def requiredCapabilitiesForTarget (required : List String) : TargetRef → List String
  | .web _ => required
  | .desktop _ =>
    required ++ desktopUiaV1RequiredCapabilities.filter fun token => !required.contains token

def scheduleJob (mission : SchedulingMission) (binding : MissionBinding)
    (logicalJob : SchedulingMissionJob) (ids : AllocatedIds) : ScheduleMissionJob :=
  let target := missionTargetRef mission.dispatch.targetUrl binding.configuration
  { logicalJobId := logicalJob.jobId
    attemptId := ids.attemptId
    runnerId := binding.runnerId
    requiredCapabilities := requiredCapabilitiesForTarget logicalJob.requiredCapabilities target
    job := {
      jobId := ids.runnerJobId, runId := ids.runId, projectId := mission.projectId, target
      objective := logicalJob.objective, policy := mission.executionPolicy
      plan := {
        missionId := mission.missionId, missionRevision := mission.missionRevision
        testCaseId := logicalJob.testCaseId, steps := logicalJob.snapshot.steps
        expectedClaimIds :=
          NonEmptyList.map (fun claim => claim.claimId) logicalJob.snapshot.expectedClaims
        budget := logicalJob.budget } } }

/-- The jobs of a mission, each with the identities of its turn. -/
def createJobs (mission : SchedulingMission) (binding : MissionBinding)
    (ids : ℕ → AllocatedIds) : List ScheduleMissionJob :=
  mission.jobs.zipIdx.map fun entry => scheduleJob mission binding entry.1 (ids entry.2)

def assertCurrent (current : Option MissionRow) (head : Option SchedulingHeadRow)
    (command : StartMissionCommand) (mission : SchedulingMission) : Scheduling Unit :=
  match current, head with
  | none, _ => conflict .missionNotFound none
  | some _, none => conflict .missionRevisionConflict none
  | some current, some head =>
    if current.revision ≠ mission.missionRevision ∨
        head.missionRevision ≠ mission.missionRevision then
      conflict .missionRevisionConflict (some head.version)
    else if current.compiledHash ≠ mission.compiledHash ∨
        head.compiledHash ≠ mission.compiledHash then
      conflict .missionHashConflict (some head.version)
    else if current.status ≠ .approved then conflict .missionStatusConflict (some head.version)
    else if head.version ≠ command.expectedVersion then
      conflict .missionVersionConflict (some head.version)
    else if mission.dispatch.binding.any fun binding =>
        binding.planVersion = mission.planVersion ∧
          binding.planSnapshotHash = mission.planSnapshotHash ∧
          binding.targetVersion = mission.targetVersion ∧
          binding.targetSnapshotHash = mission.targetSnapshotHash then .ok ()
    else conflict .missionHashConflict (some head.version)

def assertPlan (P : Platform) (plan : Option TestPlanRevision) (currentVersion : Option ℕ)
    (mission : SchedulingMission) : Scheduling Unit :=
  match plan with
  | none => conflict .planVersionConflict currentVersion
  | some plan =>
    if currentVersion ≠ some mission.planVersion then
      conflict .planVersionConflict currentVersion
    else if plan.status ≠ .approved then conflict .planStatusConflict none
    else if P.hashText plan.toValue ≠ mission.planSnapshotHash then
      conflict .planHashConflict none
    else .ok ()

def assertTarget (target : Option TargetRevision) (mission : SchedulingMission)
    (binding : MissionBinding) : Scheduling Unit :=
  if target.any fun target => target.projectId = mission.projectId ∧
      target.runnerId = binding.runnerId ∧ target.snapshotHash = mission.targetSnapshotHash then
    .ok ()
  else conflict .missionHashConflict none

/-- Insert a row whose key and other unique columns are free. -/
def insertUnique {ρ κ : Type} [DecidableEq κ] {key : ρ → κ} (table : String) (t : Table ρ key)
    (clashes : ρ → Bool) (r : ρ) : Scheduling (Table ρ key) :=
  if t.rows.any clashes then .error (.constraintViolation table)
  else match t.insert r with
    | some t' => .ok t'
    | none => .error (.constraintViolation table)

/-- The rows of one scheduled job: its run, its attempt, its Runner job and its outbox row. -/
def writeJob (mission : SchedulingMission) (command : StartMissionCommand)
    (scheduledAt : Timestamp) (db : MissionDb) (scheduled : ScheduleMissionJob) :
    Scheduling MissionDb := do
  let runs ← insertUnique "execution_runs" db.runs (fun _ => false)
    ⟨scheduled.job.runId, scheduled.job.jobId, scheduled.job.objective⟩
  let attempts ← insertUnique "mission_job_attempts" db.attempts
    (fun r => r.runnerJobId = scheduled.job.jobId ∨ r.runId = scheduled.job.runId)
    { attemptId := scheduled.attemptId, missionId := mission.missionId
      missionRevision := mission.missionRevision, logicalJobId := scheduled.logicalJobId
      runnerJobId := scheduled.job.jobId, runId := scheduled.job.runId
      status := .pendingDispatch }
  let runnerJobs ← insertUnique "runner_execution_jobs" db.runnerJobs
    (fun r => r.attemptId = scheduled.attemptId)
    ⟨scheduled.job.jobId, scheduled.attemptId, scheduled.runnerId, scheduled.job.toValue⟩
  let outbox ← insertUnique "mission_dispatch_outbox" db.outbox
    (fun r => r.runnerJobId = scheduled.job.jobId ∨ r.runId = scheduled.job.runId)
    { attemptId := scheduled.attemptId, missionId := mission.missionId
      runnerId := scheduled.runnerId, runnerJobId := scheduled.job.jobId
      runId := scheduled.job.runId, idempotencyKey := command.idempotencyKey
      requiredCapabilities := AppTarget.strings scheduled.requiredCapabilities
      acceptedJob := scheduled.job.toValue, status := .pending, version := 1
      acceptedAt := none, acceptanceReceipt := none, createdAt := scheduledAt }
  .ok { db with runs, attempts, runnerJobs, outbox }

def scheduledResult (mission : SchedulingMission) (command : StartMissionCommand)
    (jobs : List ScheduleMissionJob) : ScheduledMission where
  missionId := mission.missionId
  missionRevision := mission.missionRevision
  missionVersion := command.expectedVersion + 1
  runs := jobs.map fun scheduled =>
    ⟨scheduled.logicalJobId, scheduled.attemptId, scheduled.job.jobId, scheduled.job.runId⟩

/-- Whether an update selects the one row that it needs. -/
def requireOne {ρ κ : Type} {key : ρ → κ} (t : Table ρ key) (selects : ρ → Bool)
    (version : Option ℕ) : Scheduling Unit :=
  if t.count selects = 1 then .ok () else conflict .missionVersionConflict version

/-- The writes of a start that passed its checks. -/
def writeSchedule (P : Platform) (command : StartMissionCommand) (mission : SchedulingMission)
    (scheduledAt : Timestamp) (jobs : List ScheduleMissionJob) (db : MissionDb) :
    Scheduling (ScheduledMission × MissionDb) := do
  let result := scheduledResult mission command jobs
  let version := (db.schedulingHeads.get command.missionId).map (·.version)
  let selectsMission : MissionRow → Bool := fun r =>
    r.missionId = command.missionId ∧ r.revision = mission.missionRevision ∧
      r.status = .approved ∧ r.compiledHash = mission.compiledHash
  requireOne db.missions selectsMission version
  let selectsHead : SchedulingHeadRow → Bool := fun r =>
    r.missionId = command.missionId ∧ r.missionRevision = mission.missionRevision ∧
      r.version = command.expectedVersion ∧ r.compiledHash = mission.compiledHash
  requireOne db.schedulingHeads selectsHead version
  let startCommands ← insertUnique "mission_start_commands" db.startCommands
    (fun r => r.missionId = command.missionId)
    { idempotencyKey := command.idempotencyKey
      commandHash := missionStartCommandHash P command, missionId := command.missionId
      expectedMissionVersion := command.expectedVersion
      missionRevision := mission.missionRevision
      missionCompiledHash := mission.compiledHash, result, createdAt := scheduledAt }
  let started := { db with
    missions := db.missions.update selectsMission (fun r => { r with status := .running })
      fun _ => rfl
    schedulingHeads := db.schedulingHeads.update selectsHead
      (fun r => { r with version := result.missionVersion }) fun _ => rfl
    startCommands := startCommands }
  let written ← jobs.foldlM (writeJob mission command scheduledAt) started
  let wakeups ← insertUnique "mission_dispatch_wakeups" written.wakeups (fun _ => false)
    ⟨mission.missionId, 1⟩
  .ok (result, { written with wakeups })

/-- The stored result of a key, unless the key belongs to another command. -/
def replayResult (P : Platform) (row : StartCommandRow) (command : StartMissionCommand) :
    Scheduling ScheduledMission :=
  if row.commandHash ≠ missionStartCommandHash P command then
    conflict .idempotencyConflict (some (row.expectedMissionVersion + 1))
  else .ok row.result

def replayMissionSchedule (P : Platform) (command : StartMissionCommand) (db : MissionDb) :
    Scheduling (Option ScheduledMission) :=
  match db.startCommands.get command.idempotencyKey with
  | none => .ok none
  | some row => some <$> replayResult P row command

/-- The body of `scheduleMission`. -/
def scheduleMission (P : Platform) (command : StartMissionCommand) (mission : SchedulingMission)
    (binding : MissionBinding) (scheduledAt : Timestamp) (ids : ℕ → AllocatedIds)
    (db : MissionDb) : Scheduling (ScheduledMission × MissionDb) :=
  match db.startCommands.get command.idempotencyKey with
  | some row => do
    let result ← replayResult P row command
    .ok (result, db)
  | none =>
    match db.startCommands.rows.find? fun r => r.missionId = command.missionId with
    | some row => conflict .missionVersionConflict (some (row.expectedMissionVersion + 1))
    | none => do
      assertCurrent (currentMission db command.missionId)
        (db.schedulingHeads.get command.missionId) command mission
      assertPlan P (getPlan db mission.planId mission.planVersion)
        ((db.planHeads.get mission.planId).map (·.currentVersion)) mission
      assertTarget ((db.targets.get (binding.targetId, binding.targetVersion)).map
        (·.revision)) mission binding
      writeSchedule P command mission scheduledAt (createJobs mission binding ids) db

/-! ## The dispatch outbox -/

def isNonEmptyText : JsValue → Bool
  | .str s => s ≠ ""
  | _ => false

/-- What a dispatch row is read as. -/
structure MissionDispatch where
  attemptId : String
  missionId : String
  runnerId : String
  runnerJobId : String
  runId : String
  requiredCapabilities : List String
  job : AcceptedExecutionJob
  status : DispatchStatus
  version : ℕ
  createdAt : Timestamp
  deriving DecidableEq

def isUnsupported : ExecutionPlanStep → Bool
  | .select .. | .scroll .. => true
  | _ => false

def readCapabilities : JsValue → Scheduling (List String)
  | .arr items =>
    if items.all isNonEmptyText then .ok (items.filterMap fun item =>
      match item with
      | .str s => some s
      | _ => none)
    else .error (.error "Invalid persisted Mission dispatch capabilities.")
  | _ => .error (.error "Invalid persisted Mission dispatch capabilities.")

/-- The job of a row, which has to be accepted by the parser and to have a plan. -/
def readJob (P : Platform) (value : JsValue) : Scheduling AcceptedExecutionJob :=
  match parseExecutionJob P value with
  | .error _ => .error (.error "ExecutionPolicySnapshotError")
  | .ok job => match job.plan with
    | none => .error (.error "Persisted Mission dispatch Job has no Plan snapshot.")
    | some plan =>
      if plan.steps.toList.any isUnsupported then
        .error (.error "Persisted Mission dispatch Job contains an unsupported Plan step.")
      else .ok job

def dispatchBase (P : Platform) (row : OutboxRow) : Scheduling MissionDispatch := do
  let requiredCapabilities ← readCapabilities row.requiredCapabilities
  let job ← readJob P row.acceptedJob
  .ok { attemptId := row.attemptId, missionId := row.missionId, runnerId := row.runnerId
        runnerJobId := row.runnerJobId, runId := row.runId, requiredCapabilities, job
        status := row.status, version := row.version, createdAt := row.createdAt }

/-- The pending rows, oldest first. -/
def pendingRows (db : MissionDb) : List OutboxRow :=
  (db.outbox.rows.filter fun r => r.status = .pending).insertionSort fun a b =>
    a.createdAt < b.createdAt ∨ a.createdAt = b.createdAt ∧ a.attemptId ≤ b.attemptId

def pendingDispatches (P : Platform) (limit : ℕ) (db : MissionDb) :
    Scheduling (List MissionDispatch) :=
  if limit = 0 ∨ 256 < limit then .error (.error "Invalid Mission dispatch batch limit.")
  else ((pendingRows db).take limit).mapM (dispatchBase P)

/-- `Date.parse` of a text with a sign and six digits for its year. -/
def parseExpandedInstant (text : Timestamp) : Option Int :=
  match text.toList with
  | sign :: y1 :: y2 :: y3 :: y4 :: y5 :: y6 :: '-' :: m1 :: m2 :: '-' :: d1 :: d2 :: rest => do
    let magnitude ← digitsValue [y1, y2, y3, y4, y5, y6]
    let year : Int ← if sign = '+' then some magnitude
      else if sign = '-' then some (-magnitude) else none
    let month ← digitsValue [m1, m2]
    let day ← digitsValue [d1, d2]
    -- the same day and time of a leap year of four digits
    let ms ← parseInstant (String.ofList ("2000-".toList ++ m1 :: m2 :: '-' :: d1 :: d2 :: rest))
    some (ms + (daysFromCivil year month day - daysFromCivil 2000 month day) * 86400000)
  | _ => none

def canonicalInstant (text : Timestamp) : Bool :=
  match (parseInstant text).or (parseExpandedInstant text) with
  | some ms => toISOString ms = text
  | none => false

def checkReceipt (receipt : MissionDispatchAcceptanceReceipt) : Scheduling Unit :=
  if isBlank receipt.jobId ∨ isBlank receipt.runId ∨ ¬ canonicalInstant receipt.acceptedAt then
    .error (.error "Invalid Mission dispatch acceptance receipt.")
  else .ok ()

/-- A pending row of a version. -/
def isPendingAt (attemptId : String) (version : ℕ) (r : OutboxRow) : Bool :=
  r.attemptId = attemptId ∧ r.status = .pending ∧ r.version = version

/-- Move the attempt of a dispatch on, which has to wait for its dispatch. -/
def moveAttempt (attemptId : String) (status : AttemptStatus) (version : ℕ) (db : MissionDb) :
    Scheduling MissionDb :=
  let selects : AttemptRow → Bool := fun r =>
    r.attemptId = attemptId ∧ r.status = .pendingDispatch
  if db.attempts.count selects = 1 then
    .ok { db with
      attempts := db.attempts.update selects (fun r => { r with status := status }) fun _ => rfl }
  else conflict .missionDispatchReceiptConflict (some version)

/-- The row of a dispatch that was accepted before, with the same receipt. -/
def acceptedDispatchReplay (P : Platform) (row : OutboxRow)
    (receipt : MissionDispatchAcceptanceReceipt) (expectedVersion : ℕ) :
    Scheduling MissionDispatch :=
  if row.version ≠ expectedVersion + 1 ∨ row.acceptedAt ≠ some receipt.acceptedAt ∨
      row.acceptanceReceipt ≠ some receipt then
    conflict .missionDispatchReceiptConflict (some row.version)
  else dispatchBase P row

def markDispatchAccepted (P : Platform) (attemptId : String)
    (receipt : MissionDispatchAcceptanceReceipt) (expectedVersion : ℕ) (db : MissionDb) :
    Scheduling (MissionDispatch × MissionDb) := do
  checkReceipt receipt
  match db.outbox.get attemptId with
  | none => conflict .missionDispatchNotFound none
  | some row =>
    if row.runnerJobId ≠ receipt.jobId ∨ row.runId ≠ receipt.runId then
      conflict .missionDispatchReceiptConflict (some row.version)
    else if row.status = .accepted then do
      let dispatch ← acceptedDispatchReplay P row receipt expectedVersion
      .ok (dispatch, db)
    else if row.status ≠ .pending ∨ row.version ≠ expectedVersion then
      conflict .missionDispatchVersionConflict (some row.version)
    else do
      let accept : OutboxRow → OutboxRow := fun r => { r with
        status := .accepted, version := expectedVersion + 1
        acceptedAt := some receipt.acceptedAt, acceptanceReceipt := some receipt }
      let db' ← moveAttempt attemptId .accepted (expectedVersion + 1) { db with
        outbox := db.outbox.update (isPendingAt attemptId expectedVersion) accept fun _ => rfl }
      let dispatch ← dispatchBase P (accept row)
      .ok (dispatch, db')

def markDispatchBlocked (P : Platform) (attemptId : String) (expectedVersion : ℕ)
    (db : MissionDb) : Scheduling (MissionDispatch × MissionDb) :=
  match db.outbox.get attemptId with
  | none => conflict .missionDispatchNotFound none
  | some row =>
    if row.status = .blocked then
      if row.version ≠ expectedVersion + 1 then
        conflict .missionDispatchVersionConflict (some row.version)
      else do
        let dispatch ← dispatchBase P row
        .ok (dispatch, db)
    else if row.status ≠ .pending ∨ row.version ≠ expectedVersion then
      conflict .missionDispatchVersionConflict (some row.version)
    else do
      let block : OutboxRow → OutboxRow := fun r => { r with
        status := .blocked, version := expectedVersion + 1 }
      let db' ← moveAttempt attemptId .blocked (expectedVersion + 1) { db with
        outbox := db.outbox.update (isPendingAt attemptId expectedVersion) block fun _ => rfl }
      let dispatch ← dispatchBase P (block row)
      .ok (dispatch, db')

/-- `setMissionStatus`. -/
def setMissionStatus (missionId : String) (revision : ℕ) (status : MissionStatus)
    (db : MissionDb) : MissionDb :=
  { db with
    missions := db.missions.update (fun r => r.missionId = missionId ∧ r.revision = revision)
      (fun r => { r with status := status }) fun _ => rfl }

end Qualigence.Mission
