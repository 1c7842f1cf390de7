import Qualigence.Mission.World

/-! # What starts and dispatches write

A start that passes its checks appends one run, one attempt, one Runner job and one outbox
row for each of its jobs, and one start command for the mission; every other table keeps
its rows. A dispatch that is marked moves one pending row and its attempt on.
-/

namespace Qualigence.Mission

open Foundation Protocol

theorem mem_of_currentMission {db : MissionDb} {missionId : String} {row : MissionRow}
    (h : currentMission db missionId = some row) :
    row ∈ db.missions.rows ∧ row.missionId = missionId := by
  have hmem : ∀ b ∈ currentMission db missionId,
      b ∈ db.missions.rows ∧ b.missionId = missionId := by
    unfold currentMission
    refine List.foldlRecOn (motive := fun best => ∀ b ∈ best,
      b ∈ db.missions.rows ∧ b.missionId = missionId) _ _ (by simp) ?_
    intro best hbest r hr
    have hnew : ∀ b ∈ some r, b ∈ db.missions.rows ∧ b.missionId = missionId := by
      rintro b ⟨⟩
      obtain ⟨hmem, hid⟩ := List.mem_filter.mp hr
      exact ⟨hmem, of_decide_eq_true hid⟩
    split
    · split
      · exact hnew
      · exact hbest
    · exact hnew
  exact hmem row h

/-! ## The rows of a job -/

def runRow (s : ScheduleMissionJob) : ExecutionRunRow := ⟨s.job.runId, s.job.jobId, s.job.objective⟩

def runnerJobRow (s : ScheduleMissionJob) : RunnerJobRow :=
  ⟨s.job.jobId, s.attemptId, s.runnerId, s.job.toValue⟩

def attemptRow (mission : SchedulingMission) (s : ScheduleMissionJob) : AttemptRow where
  attemptId := s.attemptId
  missionId := mission.missionId
  missionRevision := mission.missionRevision
  logicalJobId := s.logicalJobId
  runnerJobId := s.job.jobId
  runId := s.job.runId
  status := .pendingDispatch

def outboxRow (mission : SchedulingMission) (command : StartMissionCommand)
    (scheduledAt : Timestamp) (s : ScheduleMissionJob) : OutboxRow where
  attemptId := s.attemptId
  missionId := mission.missionId
  runnerId := s.runnerId
  runnerJobId := s.job.jobId
  runId := s.job.runId
  idempotencyKey := command.idempotencyKey
  requiredCapabilities := AppTarget.strings s.requiredCapabilities
  acceptedJob := s.job.toValue
  status := .pending
  version := 1
  acceptedAt := none
  acceptanceReceipt := none
  createdAt := scheduledAt

/-- The rows of jobs are appended, and nothing else changes. -/
structure Writes (mission : SchedulingMission) (command : StartMissionCommand)
    (scheduledAt : Timestamp) (jobs : List ScheduleMissionJob) (db db' : MissionDb) : Prop where
  runs : db'.runs.rows = db.runs.rows ++ jobs.map runRow
  attempts : db'.attempts.rows = db.attempts.rows ++ jobs.map (attemptRow mission)
  runnerJobs : db'.runnerJobs.rows = db.runnerJobs.rows ++ jobs.map runnerJobRow
  outbox : db'.outbox.rows = db.outbox.rows ++ jobs.map (outboxRow mission command scheduledAt)
  rest : db' = { db with runs := db'.runs, attempts := db'.attempts,
                         runnerJobs := db'.runnerJobs, outbox := db'.outbox }

section Writes

variable {mission : SchedulingMission} {command : StartMissionCommand} {scheduledAt : Timestamp}
  {db db' : MissionDb}

theorem rows_of_insertUnique {ρ κ : Type} [DecidableEq κ] {key : ρ → κ} {table : String}
    {t t' : Table ρ key} {clashes : ρ → Bool} {r : ρ}
    (h : insertUnique table t clashes r = .ok t') :
    t'.rows = t.rows ++ [r] ∧ ∀ x ∈ t.rows, clashes x = false := by
  unfold insertUnique at h
  split at h
  · cases h
  next hc =>
  split at h
  · next u hu =>
    cases h
    exact ⟨Table.rows_of_insert hu, by simpa using hc⟩
  · cases h

theorem writes_of_writeJob {s : ScheduleMissionJob}
    (h : writeJob mission command scheduledAt db s = .ok db') :
    Writes mission command scheduledAt [s] db db' := by
  unfold writeJob at h
  obtain ⟨runs, hr, h⟩ := bind_eq_ok.mp h
  obtain ⟨attempts, ha, h⟩ := bind_eq_ok.mp h
  obtain ⟨runnerJobs, hj, h⟩ := bind_eq_ok.mp h
  obtain ⟨outbox, ho, h⟩ := bind_eq_ok.mp h
  cases h
  exact ⟨(rows_of_insertUnique hr).1, (rows_of_insertUnique ha).1, (rows_of_insertUnique hj).1,
    (rows_of_insertUnique ho).1, rfl⟩

theorem Writes.trans {db'' : MissionDb} {jobs jobs' : List ScheduleMissionJob}
    (h : Writes mission command scheduledAt jobs db db')
    (h' : Writes mission command scheduledAt jobs' db' db'') :
    Writes mission command scheduledAt (jobs ++ jobs') db db'' := by
  constructor
  · rw [h'.runs, h.runs, List.map_append, List.append_assoc]
  · rw [h'.attempts, h.attempts, List.map_append, List.append_assoc]
  · rw [h'.runnerJobs, h.runnerJobs, List.map_append, List.append_assoc]
  · rw [h'.outbox, h.outbox, List.map_append, List.append_assoc]
  · have hrest := h'.rest
    rw [h.rest] at hrest
    exact hrest

theorem writes_of_foldlM {jobs : List ScheduleMissionJob}
    (h : jobs.foldlM (writeJob mission command scheduledAt) db = .ok db') :
    Writes mission command scheduledAt jobs db db' := by
  induction jobs generalizing db with
  | nil =>
    cases h
    exact ⟨by simp, by simp, by simp, by simp, rfl⟩
  | cons s jobs ih =>
    rw [List.foldlM_cons] at h
    obtain ⟨next, hn, h⟩ := bind_eq_ok.mp h
    exact (writes_of_writeJob hn).trans (ih h)

end Writes

/-! ## A start -/

def startRow (P : Platform) (command : StartMissionCommand) (mission : SchedulingMission)
    (scheduledAt : Timestamp) (jobs : List ScheduleMissionJob) : StartCommandRow where
  idempotencyKey := command.idempotencyKey
  commandHash := missionStartCommandHash P command
  missionId := command.missionId
  expectedMissionVersion := command.expectedVersion
  missionRevision := mission.missionRevision
  missionCompiledHash := mission.compiledHash
  result := scheduledResult mission command jobs
  createdAt := scheduledAt

def selectsMission (command : StartMissionCommand) (mission : SchedulingMission)
    (r : MissionRow) : Bool :=
  r.missionId = command.missionId ∧ r.revision = mission.missionRevision ∧
    r.status = .approved ∧ r.compiledHash = mission.compiledHash

def selectsHead (command : StartMissionCommand) (mission : SchedulingMission)
    (r : SchedulingHeadRow) : Bool :=
  r.missionId = command.missionId ∧ r.missionRevision = mission.missionRevision ∧
    r.version = command.expectedVersion ∧ r.compiledHash = mission.compiledHash

/-- What the writes of a start leave. -/
structure Starts (P : Platform) (command : StartMissionCommand) (mission : SchedulingMission)
    (scheduledAt : Timestamp) (jobs : List ScheduleMissionJob) (db db' : MissionDb) : Prop where
  fresh : ∀ r ∈ db.startCommands.rows, r.missionId ≠ command.missionId
  oneMission : db.missions.count (selectsMission command mission) = 1
  oneHead : db.schedulingHeads.count (selectsHead command mission) = 1
  startCommands : db'.startCommands.rows =
    db.startCommands.rows ++ [startRow P command mission scheduledAt jobs]
  missions : db'.missions = db.missions.update (selectsMission command mission)
    (fun r => { r with status := .running }) fun _ => rfl
  schedulingHeads : db'.schedulingHeads = db.schedulingHeads.update (selectsHead command mission)
    (fun r => { r with version := command.expectedVersion + 1 }) fun _ => rfl
  runs : db'.runs.rows = db.runs.rows ++ jobs.map runRow
  attempts : db'.attempts.rows = db.attempts.rows ++ jobs.map (attemptRow mission)
  runnerJobs : db'.runnerJobs.rows = db.runnerJobs.rows ++ jobs.map runnerJobRow
  outbox : db'.outbox.rows = db.outbox.rows ++ jobs.map (outboxRow mission command scheduledAt)
  rest : db' = { db with missions := db'.missions, schedulingHeads := db'.schedulingHeads,
                         startCommands := db'.startCommands, runs := db'.runs,
                         attempts := db'.attempts, runnerJobs := db'.runnerJobs,
                         outbox := db'.outbox, wakeups := db'.wakeups }

section Starts

variable {P : Platform} {command : StartMissionCommand} {mission : SchedulingMission}
  {scheduledAt : Timestamp} {jobs : List ScheduleMissionJob} {db db' : MissionDb}
  {result : ScheduledMission}

theorem count_of_requireOne {ρ κ : Type} {key : ρ → κ} {t : Table ρ key} {selects : ρ → Bool}
    {version : Option ℕ} {u : Unit} (h : requireOne t selects version = .ok u) :
    t.count selects = 1 := by
  unfold requireOne conflict at h
  split at h
  · assumption
  · cases h

theorem starts_of_writeSchedule
    (h : writeSchedule P command mission scheduledAt jobs db = .ok (result, db')) :
    result = scheduledResult mission command jobs ∧
      Starts P command mission scheduledAt jobs db db' := by
  unfold writeSchedule at h
  obtain ⟨_, hm, h⟩ := bind_eq_ok.mp h
  obtain ⟨_, hh, h⟩ := bind_eq_ok.mp h
  obtain ⟨startCommands, hs, h⟩ := bind_eq_ok.mp h
  obtain ⟨written, hw, h⟩ := bind_eq_ok.mp h
  obtain ⟨wakeups, _, h⟩ := bind_eq_ok.mp h
  cases h
  have w := writes_of_foldlM hw
  have hrest := w.rest
  have hfresh : ∀ r ∈ db.startCommands.rows, r.missionId ≠ command.missionId := by
    intro r hr
    exact of_decide_eq_false ((rows_of_insertUnique hs).2 r hr)
  refine ⟨rfl, hfresh, count_of_requireOne hm, count_of_requireOne hh, ?_, ?_, ?_, w.runs,
    w.attempts, w.runnerJobs, w.outbox, ?_⟩
  · change written.startCommands.rows = _
    rw [hrest]
    exact (rows_of_insertUnique hs).1
  · change written.missions = _
    rw [hrest]
    rfl
  · change written.schedulingHeads = _
    rw [hrest]
    rfl
  · rw [hrest]

/-- A start that succeeds either repeats the stored result of its key or is the first start of
its mission and passes the checks of the mission, its plan and its target. -/
theorem scheduleMission_cases {binding : MissionBinding} {ids : ℕ → AllocatedIds}
    (h : scheduleMission P command mission binding scheduledAt ids db = .ok (result, db')) :
    (∃ row, db.startCommands.get command.idempotencyKey = some row ∧
      row.commandHash = missionStartCommandHash P command ∧ result = row.result ∧ db' = db) ∨
    (db.startCommands.get command.idempotencyKey = none ∧
      assertCurrent (currentMission db command.missionId)
        (db.schedulingHeads.get command.missionId) command mission = .ok () ∧
      assertPlan P (getPlan db mission.planId mission.planVersion)
        ((db.planHeads.get mission.planId).map (·.currentVersion)) mission = .ok () ∧
      result = scheduledResult mission command (createJobs mission binding ids) ∧
      Starts P command mission scheduledAt (createJobs mission binding ids) db db') := by
  unfold scheduleMission at h
  split at h
  · next row hrow =>
    obtain ⟨stored, hreplay, h⟩ := bind_eq_ok.mp h
    cases h
    unfold replayResult conflict at hreplay
    split at hreplay
    · cases hreplay
    · next hhash =>
      cases hreplay
      exact .inl ⟨row, hrow, not_not.mp hhash, rfl, rfl⟩
  next hnone =>
  split at h
  · cases h
  obtain ⟨_, hcurrent, h⟩ := bind_eq_ok.mp h
  obtain ⟨_, hplan, h⟩ := bind_eq_ok.mp h
  obtain ⟨_, _, h⟩ := bind_eq_ok.mp h
  obtain ⟨hresult, hstarts⟩ := starts_of_writeSchedule h
  exact .inr ⟨hnone, hcurrent, hplan, hresult, hstarts⟩

end Starts

/-! ## Marks of a dispatch -/

def acceptRow (receipt : MissionDispatchAcceptanceReceipt) (version : ℕ) (r : OutboxRow) :
    OutboxRow :=
  { r with status := .accepted, version := version + 1
           acceptedAt := some receipt.acceptedAt, acceptanceReceipt := some receipt }

def blockRow (version : ℕ) (r : OutboxRow) : OutboxRow :=
  { r with status := .blocked, version := version + 1 }

/-- An attempt that waits for its dispatch. -/
def waits (attemptId : String) (r : AttemptRow) : Bool :=
  r.attemptId = attemptId ∧ r.status = .pendingDispatch

/-- The pending row of an attempt is rewritten, and its attempt moves on. -/
structure Marks (attemptId : String) (version : ℕ) (rewrite : OutboxRow → OutboxRow)
    (hrewrite : ∀ r, (rewrite r).attemptId = r.attemptId) (status : AttemptStatus)
    (db db' : MissionDb) : Prop where
  oneAttempt : db.attempts.count (waits attemptId) = 1
  outbox : db'.outbox = db.outbox.update (isPendingAt attemptId version) rewrite hrewrite
  attempts : db'.attempts = db.attempts.update (waits attemptId)
    (fun r => { r with status := status }) fun _ => rfl
  rest : db' = { db with outbox := db'.outbox, attempts := db'.attempts }

section Marks

variable {P : Platform} {attemptId : String} {version : ℕ} {db db' : MissionDb}
  {dispatch : MissionDispatch}

theorem marks_of_moveAttempt {rewrite : OutboxRow → OutboxRow}
    {hrewrite : ∀ r, (rewrite r).attemptId = r.attemptId} {status : AttemptStatus} {n : ℕ}
    (h : moveAttempt attemptId status n { db with
      outbox := db.outbox.update (isPendingAt attemptId version) rewrite hrewrite } = .ok db') :
    Marks attemptId version rewrite hrewrite status db db' := by
  unfold moveAttempt conflict at h
  dsimp only at h
  split at h
  · next hcount =>
    cases h
    exact ⟨hcount, rfl, rfl, rfl⟩
  · cases h

/-- An acceptance that succeeds repeats an accepted row or accepts a pending row of the
receipt's job and run. -/
theorem markDispatchAccepted_cases {receipt : MissionDispatchAcceptanceReceipt}
    (h : markDispatchAccepted P attemptId receipt version db = .ok (dispatch, db')) :
    (∃ row, db.outbox.get attemptId = some row ∧ row.status = .accepted ∧ db' = db) ∨
    (∃ row, db.outbox.get attemptId = some row ∧ row.status = .pending ∧
      row.version = version ∧ row.runnerJobId = receipt.jobId ∧ row.runId = receipt.runId ∧
      Marks attemptId version (acceptRow receipt version) (fun _ => rfl) .accepted db db') := by
  unfold markDispatchAccepted at h
  obtain ⟨_, _, h⟩ := bind_eq_ok.mp h
  split at h
  · cases h
  next row hrow =>
  split at h
  · cases h
  next hids =>
  push Not at hids
  split at h
  · next hstatus =>
    obtain ⟨d, _, h⟩ := bind_eq_ok.mp h
    cases h
    exact .inl ⟨row, hrow, hstatus, rfl⟩
  split at h
  · cases h
  next hpending =>
  push Not at hpending
  obtain ⟨moved, hmoved, h⟩ := bind_eq_ok.mp h
  obtain ⟨d, _, h⟩ := bind_eq_ok.mp h
  cases h
  exact .inr ⟨row, hrow, hpending.1, hpending.2, hids.1, hids.2, marks_of_moveAttempt hmoved⟩

theorem markDispatchBlocked_cases
    (h : markDispatchBlocked P attemptId version db = .ok (dispatch, db')) :
    (∃ row, db.outbox.get attemptId = some row ∧ row.status = .blocked ∧ db' = db) ∨
    (∃ row, db.outbox.get attemptId = some row ∧ row.status = .pending ∧
      row.version = version ∧
      Marks attemptId version (blockRow version) (fun _ => rfl) .blocked db db') := by
  unfold markDispatchBlocked at h
  split at h
  · cases h
  next row hrow =>
  split at h
  · next hstatus =>
    split at h
    · cases h
    obtain ⟨d, _, h⟩ := bind_eq_ok.mp h
    cases h
    exact .inl ⟨row, hrow, hstatus, rfl⟩
  split at h
  · cases h
  next hpending =>
  push Not at hpending
  obtain ⟨moved, hmoved, h⟩ := bind_eq_ok.mp h
  obtain ⟨d, _, h⟩ := bind_eq_ok.mp h
  cases h
  exact .inr ⟨row, hrow, hpending.1, hpending.2, marks_of_moveAttempt hmoved⟩

end Marks

end Qualigence.Mission
