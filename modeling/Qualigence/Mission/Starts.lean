import Qualigence.Mission.Scheduled

/-! # Starts of missions, statement by statement

All requests share one connection, so that the statements of other requests run between the
statements of an open transaction. A start first asks for a stored result and loads its
mission; its transaction is refused while another one is open, and otherwise checks the
mission and writes its rows one after another. What is written is visible to the reads of
the other requests at once, and becomes the database at the commit.
-/

namespace Qualigence.Mission

open Foundation Protocol

/-! ## The statements of a start -/

/-- A writing statement. -/
abbrev Write := MissionDb → Scheduling MissionDb

theorem MissionRow.key_running (r : MissionRow) :
    MissionRow.key { r with status := .running } = r.key := rfl

def updateMission (command : StartMissionCommand) (mission : SchedulingMission) : Write :=
  fun db => do
    requireOne db.missions (selectsMission command mission)
      ((db.schedulingHeads.get command.missionId).map (·.version))
    .ok { db with
      missions := db.missions.update (selectsMission command mission)
        (fun r => { r with status := .running }) MissionRow.key_running }

def updateHead (command : StartMissionCommand) (mission : SchedulingMission) : Write :=
  fun db => do
    requireOne db.schedulingHeads (selectsHead command mission)
      ((db.schedulingHeads.get command.missionId).map (·.version))
    .ok { db with
      schedulingHeads := db.schedulingHeads.update (selectsHead command mission)
        (fun r => { r with version := command.expectedVersion + 1 }) fun _ => rfl }

def insertStart (P : Platform) (command : StartMissionCommand) (mission : SchedulingMission)
    (scheduledAt : Timestamp) (jobs : List ScheduleMissionJob) : Write :=
  fun db => do
    let startCommands ← insertUnique "mission_start_commands" db.startCommands
      (fun r => r.missionId = command.missionId) (startRow P command mission scheduledAt jobs)
    .ok { db with startCommands }

def insertRun (s : ScheduleMissionJob) : Write := fun db => do
  let runs ← insertUnique "execution_runs" db.runs (fun _ => false) (runRow s)
  .ok { db with runs }

def insertAttempt (mission : SchedulingMission) (s : ScheduleMissionJob) : Write := fun db => do
  let attempts ← insertUnique "mission_job_attempts" db.attempts
    (fun r => r.runnerJobId = s.job.jobId ∨ r.runId = s.job.runId) (attemptRow mission s)
  .ok { db with attempts }

def insertRunnerJob (s : ScheduleMissionJob) : Write := fun db => do
  let runnerJobs ← insertUnique "runner_execution_jobs" db.runnerJobs
    (fun r => r.attemptId = s.attemptId) (runnerJobRow s)
  .ok { db with runnerJobs }

def insertOutbox (mission : SchedulingMission) (command : StartMissionCommand)
    (scheduledAt : Timestamp) (s : ScheduleMissionJob) : Write := fun db => do
  let outbox ← insertUnique "mission_dispatch_outbox" db.outbox
    (fun r => r.runnerJobId = s.job.jobId ∨ r.runId = s.job.runId)
    (outboxRow mission command scheduledAt s)
  .ok { db with outbox }

def insertWakeup (mission : SchedulingMission) : Write := fun db => do
  let wakeups ← insertUnique "mission_dispatch_wakeups" db.wakeups (fun _ => false)
    ⟨mission.missionId, 1⟩
  .ok { db with wakeups }

def jobWrites (mission : SchedulingMission) (command : StartMissionCommand)
    (scheduledAt : Timestamp) (s : ScheduleMissionJob) : List Write :=
  [insertRun s, insertAttempt mission s, insertRunnerJob s,
    insertOutbox mission command scheduledAt s]

def startWrites (P : Platform) (command : StartMissionCommand) (mission : SchedulingMission)
    (scheduledAt : Timestamp) (jobs : List ScheduleMissionJob) : List Write :=
  [updateMission command mission, updateHead command mission,
    insertStart P command mission scheduledAt jobs] ++
    jobs.flatMap (jobWrites mission command scheduledAt) ++ [insertWakeup mission]

/-- Statements one after another, up to the first that fails. -/
def perform (writes : List Write) (db : MissionDb) : Scheduling MissionDb :=
  writes.foldlM (fun db write => write db) db

/-- The reads at the beginning of the transaction: a stored result, or the checks. -/
def checkStart (P : Platform) (command : StartMissionCommand) (mission : SchedulingMission)
    (binding : MissionBinding) (db : MissionDb) : Scheduling (Option ScheduledMission) :=
  match db.startCommands.get command.idempotencyKey with
  | some row => some <$> replayResult P row command
  | none =>
    match db.startCommands.rows.find? fun r => r.missionId = command.missionId with
    | some row => conflict .missionVersionConflict (some (row.expectedMissionVersion + 1))
    | none => do
      assertCurrent (currentMission db command.missionId)
        (db.schedulingHeads.get command.missionId) command mission
      assertPlan P (getPlan db mission.planId mission.planVersion)
        ((db.planHeads.get mission.planId).map (·.currentVersion)) mission
      assertTarget ((db.targets.get (binding.targetId, binding.targetVersion)).map
        (·.revision)) mission binding
      .ok none

/-! ## The statements make up the transaction -/

section Statements

variable {P : Platform} {command : StartMissionCommand} {mission : SchedulingMission}
  {scheduledAt : Timestamp} {db : MissionDb}

theorem perform_append (xs ys : List Write) :
    perform (xs ++ ys) db = perform xs db >>= perform ys := List.foldlM_append

theorem perform_cons (x : Write) (xs : List Write) :
    perform (x :: xs) db = x db >>= perform xs := List.foldlM_cons

theorem perform_nil : perform [] db = .ok db := rfl

theorem perform_jobWrites (s : ScheduleMissionJob) :
    perform (jobWrites mission command scheduledAt s) db =
      writeJob mission command scheduledAt db s := by
  simp only [jobWrites, perform_cons, writeJob, insertRun, insertAttempt, insertRunnerJob,
    insertOutbox, bind_assoc, ok_bind]
  rfl

theorem perform_flatMap (jobs : List ScheduleMissionJob) :
    perform (jobs.flatMap (jobWrites mission command scheduledAt)) db =
      jobs.foldlM (writeJob mission command scheduledAt) db := by
  induction jobs generalizing db with
  | nil => rfl
  | cons s jobs ih =>
    rw [List.flatMap_cons, perform_append, perform_jobWrites, List.foldlM_cons]
    exact bind_congr fun _ => ih

/-- Performed one after another, the statements have the outcome of the transaction. -/
theorem perform_startWrites (jobs : List ScheduleMissionJob) :
    (fun db' => (scheduledResult mission command jobs, db')) <$>
        perform (startWrites P command mission scheduledAt jobs) db =
      writeSchedule P command mission scheduledAt jobs db := by
  simp only [startWrites, perform_append, perform_cons, perform_nil, perform_flatMap,
    updateMission, updateHead, insertStart, insertWakeup, writeSchedule,
    bind_assoc, map_bind, ok_bind]
  rfl

/-- The checks and the statements make up the transaction. -/
theorem scheduleMission_eq (binding : MissionBinding) (ids : ℕ → AllocatedIds) :
    scheduleMission P command mission binding scheduledAt ids db = (do
      match ← checkStart P command mission binding db with
      | some result => .ok (result, db)
      | none =>
        writeSchedule P command mission scheduledAt (createJobs mission binding ids) db) := by
  unfold scheduleMission checkStart
  cases db.startCommands.get command.idempotencyKey with
  | some row =>
    dsimp only
    cases replayResult P row command <;> rfl
  | none =>
    dsimp only
    cases db.startCommands.rows.find? fun r => decide (r.missionId = command.missionId) with
    | some row => rfl
    | none => simp only [bind_assoc, ok_bind]

end Statements

/-! ## The world of starts -/

/-- The transaction that is open on the connection. -/
structure OpenStart where
  request : ℕ
  working : MissionDb
  rest : List Write
  result : ScheduledMission

structure StartWorld where
  db : MissionDb
  requests : ℕ → Option StartPhase
  inProgress : Option OpenStart

/-- A turn. The `service` turn is a transaction of another service. The next statement of the
open transaction is performed, or it fails for a reason outside of the database. -/
inductive StartEvent where
  | service (e : MissionEvent)
  | replay (request : ℕ) (command : StartMissionCommand)
  | load (request : ℕ)
  | begin (request : ℕ) (scheduledAt : Timestamp) (ids : ℕ → AllocatedIds)
  | write
  | fail (error : ScheduleError)
  | restart

namespace StartWorld

def initial : StartWorld := ⟨.empty, fun _ => none, none⟩

/-- What the statements of the connection read. -/
def visible (w : StartWorld) : MissionDb :=
  match w.inProgress with
  | some o => o.working
  | none => w.db

def setRequest (w : StartWorld) (request : ℕ) (phase : Option StartPhase) : StartWorld :=
  { w with requests := fun i => if i = request then phase else w.requests i }

variable (P : PlanningPlatform)

/-- A transaction of another service is refused while a start has one open. -/
def service (e : MissionEvent) (w : StartWorld) : StartWorld :=
  if w.inProgress.isSome then w
  else { w with db := (MissionWorld.step P ⟨w.db, fun _ => none⟩ e).db }

def replay (request : ℕ) (command : StartMissionCommand) (w : StartWorld) :
    Option (Scheduling ScheduledMission) × StartWorld :=
  match replayMissionSchedule P.toPlatform command w.visible with
  | .error e => (some (.error e), w.setRequest request none)
  | .ok (some result) => (some (.ok result), w.setRequest request none)
  | .ok none => (none, w.setRequest request (some (.unanswered command)))

/-- Of what a load reads, an open start changes only the status and the version, which no
later statement looks at. -/
def load (request : ℕ) (w : StartWorld) : Option (Scheduling ScheduledMission) × StartWorld :=
  match w.requests request with
  | some (.unanswered command) =>
    match loadMissionForScheduling w.visible command.missionId with
    | .error e => (some (.error e), w.setRequest request none)
    | .ok none => (some (conflict .missionNotFound none), w.setRequest request none)
    | .ok (some mission) => match mission.dispatch.binding with
      | none => (some (conflict .missionHashConflict none), w.setRequest request none)
      | some binding => (none, w.setRequest request (some (.loaded command mission binding)))
  | _ => (none, w)

/-- `BEGIN IMMEDIATE` and the reads of the transaction. -/
def begin (request : ℕ) (scheduledAt : Timestamp) (ids : ℕ → AllocatedIds) (w : StartWorld) :
    Option (Scheduling ScheduledMission) × StartWorld :=
  match w.requests request with
  | some (.loaded command mission binding) =>
    let cleared := w.setRequest request none
    match w.inProgress with
    | some _ =>
      (some (.error (.error "cannot start a transaction within a transaction")), cleared)
    | none => match checkStart P.toPlatform command mission binding w.db with
      | .error e => (some (.error e), cleared)
      | .ok (some result) => (some (.ok result), cleared)
      | .ok none =>
        let jobs := createJobs mission binding ids
        (none, { cleared with inProgress := some {
          request, working := w.db
          rest := startWrites P.toPlatform command mission scheduledAt jobs
          result := scheduledResult mission command jobs } })
  | _ => (none, w)

/-- The next statement of the open transaction, or its commit. -/
def write (w : StartWorld) : Option (Scheduling ScheduledMission) × StartWorld :=
  match w.inProgress with
  | none => (none, w)
  | some o => match o.rest with
    | [] => (some (.ok o.result), { w with db := o.working, inProgress := none })
    | statement :: rest => match statement o.working with
      | .ok working => (none, { w with inProgress := some { o with working, rest } })
      | .error e => (some (.error e), { w with inProgress := none })

/-- The reply to a start, when the turn ends one, and the world after the turn. -/
def respond (w : StartWorld) :
    StartEvent → Option (Scheduling ScheduledMission) × StartWorld
  | .service e => (none, service P e w)
  | .replay request command => replay P request command w
  | .load request => load request w
  | .begin request scheduledAt ids => begin P request scheduledAt ids w
  | .write => write w
  | .fail e => match w.inProgress with
    | some _ => (some (.error e), { w with inProgress := none })
    | none => (none, w)
  | .restart => (none, { w with requests := fun _ => none, inProgress := none })

def step (w : StartWorld) (e : StartEvent) : StartWorld := (w.respond P e).2

/-- The world after a history of turns. -/
def after (events : List StartEvent) : StartWorld := events.foldl (step P) initial

end StartWorld

end Qualigence.Mission
