import Qualigence.Mission.Starts

/-! # Missions are scheduled once

A mission has no attempts and no dispatches, or exactly those of its one start, which are as
many as the mission has jobs. This holds after every history of turns, whatever keys the
starts have and however their statements follow each other.
-/

namespace Qualigence.Mission

open Foundation Protocol

def AttemptRow.identity (r : AttemptRow) : ScheduledRunIdentity :=
  ⟨r.logicalJobId, r.attemptId, r.runnerJobId, r.runId⟩

/-- The columns of a dispatch that identify its job. -/
def ScheduledRunIdentity.dispatch (r : ScheduledRunIdentity) : String × String × String :=
  (r.attemptId, r.runnerJobId, r.runId)

def OutboxRow.dispatch (r : OutboxRow) : String × String × String :=
  (r.attemptId, r.runnerJobId, r.runId)

namespace MissionDb

def startOf (db : MissionDb) (missionId : String) : Option StartCommandRow :=
  db.startCommands.rows.find? fun r => r.missionId = missionId

/-- The runs of the start of a mission; none before its start. -/
def scheduledRuns (db : MissionDb) (missionId : String) : List ScheduledRunIdentity :=
  ((db.startOf missionId).map (·.result.runs)).getD []

def attemptsOf (db : MissionDb) (missionId : String) : List AttemptRow :=
  db.attempts.rows.filter fun r => r.missionId = missionId

def outboxOf (db : MissionDb) (missionId : String) : List OutboxRow :=
  db.outbox.rows.filter fun r => r.missionId = missionId

/-- The jobs of a revision of a mission that the store has. -/
structure Complete (db : MissionDb) (missionId : String) (revision : ℕ) (jobIds : List String) :
    Prop where
  mission : (missionId, revision) ∈ db.missions.rows.map MissionRow.key
  jobs : jobIds = (jobsOf db missionId revision).map (·.jobId)

/-- Every mission has at most one start, and the attempts and dispatches of that start. -/
structure Exact (db : MissionDb) : Prop where
  one : (db.startCommands.rows.map (·.missionId)).Nodup
  attempts : ∀ m, (db.attemptsOf m).map AttemptRow.identity = db.scheduledRuns m
  outbox : ∀ m, (db.outboxOf m).map OutboxRow.dispatch =
    (db.scheduledRuns m).map ScheduledRunIdentity.dispatch
  complete : ∀ c ∈ db.startCommands.rows,
    db.Complete c.missionId c.missionRevision (c.result.runs.map (·.logicalJobId))

theorem exact_empty : MissionDb.empty.Exact := by
  constructor
  · exact List.nodup_nil
  · intro m
    rfl
  · intro m
    rfl
  · intro c hc
    cases hc

/-! ## What the other services leave -/

/-- Starts, attempts and dispatches stay but for their statuses, and a mission that is there
keeps its jobs. -/
structure Retains (db db' : MissionDb) : Prop where
  starts : db'.startCommands = db.startCommands
  attempts : db'.attempts.rows.map (fun r => (r.missionId, r.identity)) =
    db.attempts.rows.map fun r => (r.missionId, r.identity)
  outbox : db'.outbox.rows.map (fun r => (r.missionId, r.dispatch)) =
    db.outbox.rows.map fun r => (r.missionId, r.dispatch)
  missions : ∀ k ∈ db.missions.rows.map MissionRow.key, k ∈ db'.missions.rows.map MissionRow.key
  jobs : ∀ k ∈ db.missions.rows.map MissionRow.key, jobsOf db' k.1 k.2 = jobsOf db k.1 k.2

theorem Retains.refl (db : MissionDb) : Retains db db :=
  ⟨rfl, rfl, rfl, fun _ h => h, fun _ _ => rfl⟩

variable {db db' : MissionDb}

/-- Rows with the same columns give the same selection. -/
theorem map_filter_eq {ρ α : Type} {f : ρ → α} {mission : ρ → String} {rows rows' : List ρ}
    (h : rows'.map (fun r => (mission r, f r)) = rows.map fun r => (mission r, f r))
    (m : String) : (rows'.filter fun r => decide (mission r = m)).map f =
      (rows.filter fun r => decide (mission r = m)).map f := by
  have hpairs : ∀ xs : List ρ, (xs.filter fun r => decide (mission r = m)).map f =
      ((xs.map fun r => (mission r, f r)).filter fun p => decide (p.1 = m)).map (·.2) := by
    intro xs
    rw [List.filter_map, List.map_map]
    rfl
  rw [hpairs, hpairs, h]

theorem Complete.retain (hr : Retains db db') {m : String} {revision : ℕ} {jobIds : List String}
    (h : db.Complete m revision jobIds) : db'.Complete m revision jobIds := by
  constructor
  · exact hr.missions _ h.mission
  · rw [hr.jobs _ h.mission]
    exact h.jobs

theorem Exact.retain (h : db.Exact) (hr : Retains db db') : db'.Exact := by
  have hruns : ∀ m, db'.scheduledRuns m = db.scheduledRuns m := by
    intro m
    unfold scheduledRuns startOf
    rw [hr.starts]
  constructor
  · rw [hr.starts]
    exact h.one
  · intro m
    rw [hruns, ← h.attempts m]
    exact map_filter_eq hr.attempts m
  · intro m
    rw [hruns, ← h.outbox m]
    exact map_filter_eq hr.outbox m
  · intro c hc
    rw [hr.starts] at hc
    exact (h.complete c hc).retain hr

/-! ## What the statements of a start leave for the reads of others -/

/-- Start commands stay, and the missions and the jobs are those that were there. -/
structure Grows (db db' : MissionDb) : Prop where
  starts : ∀ c ∈ db.startCommands.rows, c ∈ db'.startCommands.rows
  missions : db'.missions.rows.map MissionRow.key = db.missions.rows.map MissionRow.key
  jobs : db'.jobs = db.jobs

theorem Grows.refl (db : MissionDb) : Grows db db := ⟨fun _ h => h, rfl, rfl⟩

theorem Grows.trans {db'' : MissionDb} (h : Grows db db') (h' : Grows db' db'') :
    Grows db db'' := by
  constructor
  · exact fun c hc => h'.starts c (h.starts c hc)
  · rw [h'.missions, h.missions]
  · rw [h'.jobs, h.jobs]

/-- A database with the same missions and jobs has the same complete lists of jobs. -/
theorem Complete.congr (hm : db'.missions.rows.map MissionRow.key =
    db.missions.rows.map MissionRow.key) (hj : db'.jobs = db.jobs) {m : String} {revision : ℕ}
    {jobIds : List String} (h : db.Complete m revision jobIds) :
    db'.Complete m revision jobIds := by
  constructor
  · rw [hm]
    exact h.mission
  · rw [h.jobs]
    unfold jobsOf
    rw [hj]

end MissionDb

section Writes

open MissionDb

variable {P : Platform} {command : StartMissionCommand} {mission : SchedulingMission}
  {scheduledAt : Timestamp} {jobs : List ScheduleMissionJob} {db db' : MissionDb}

theorem grows_of_jobWrites {s : ScheduleMissionJob} {write : Write}
    (hw : write ∈ jobWrites mission command scheduledAt s) (h : write db = .ok db') :
    Grows db db' := by
  simp only [jobWrites, List.mem_cons, List.not_mem_nil, or_false] at hw
  rcases hw with rfl | rfl | rfl | rfl
  all_goals
    obtain ⟨rows, _, h⟩ := bind_eq_ok.mp h
    cases h
    exact ⟨fun _ hc => hc, rfl, rfl⟩

theorem grows_of_write {write : Write}
    (hw : write ∈ startWrites P command mission scheduledAt jobs) (h : write db = .ok db') :
    Grows db db' := by
  simp only [startWrites, List.cons_append, List.nil_append, List.mem_cons, List.mem_append,
    List.mem_flatMap, List.not_mem_nil, or_false] at hw
  rcases hw with rfl | rfl | rfl | ⟨s, _, hs⟩ | rfl
  · obtain ⟨_, _, h⟩ := bind_eq_ok.mp h
    cases h
    exact ⟨fun _ hc => hc, Table.map_key_update (fun _ => by rfl), rfl⟩
  · obtain ⟨_, _, h⟩ := bind_eq_ok.mp h
    cases h
    exact ⟨fun _ hc => hc, rfl, rfl⟩
  · obtain ⟨rows, hi, h⟩ := bind_eq_ok.mp h
    cases h
    refine ⟨fun c hc => ?_, rfl, rfl⟩
    change c ∈ rows.rows
    rw [(rows_of_insertUnique hi).1]
    exact List.mem_append_left _ hc
  · exact grows_of_jobWrites hs h
  · obtain ⟨rows, _, h⟩ := bind_eq_ok.mp h
    cases h
    exact ⟨fun _ hc => hc, rfl, rfl⟩

theorem grows_of_perform {writes : List Write}
    (hw : ∀ write ∈ writes, write ∈ startWrites P command mission scheduledAt jobs)
    (h : perform writes db = .ok db') : Grows db db' := by
  induction writes generalizing db with
  | nil =>
    cases h
    exact Grows.refl _
  | cons write writes ih =>
    rw [perform_cons] at h
    obtain ⟨next, hn, h⟩ := bind_eq_ok.mp h
    exact (grows_of_write (hw write List.mem_cons_self) hn).trans
      (ih (fun x hx => hw x (List.mem_cons_of_mem _ hx)) h)

end Writes

/-! ## The commit of a start -/

section Commit

open MissionDb

variable {P : Platform} {command : StartMissionCommand} {mission : SchedulingMission}
  {binding : MissionBinding} {scheduledAt : Timestamp} {ids : ℕ → AllocatedIds}
  {db db' : MissionDb}

/-- The mission of a start has the jobs that it was loaded with. -/
structure Current (db : MissionDb) (command : StartMissionCommand)
    (mission : SchedulingMission) : Prop where
  same : mission.missionId = command.missionId
  jobs : db.Complete mission.missionId mission.missionRevision (mission.jobs.map (·.jobId))

theorem createJobs_logicalJobId (mission : SchedulingMission) (binding : MissionBinding)
    (ids : ℕ → AllocatedIds) :
    (createJobs mission binding ids).map (·.logicalJobId) = mission.jobs.map (·.jobId) := by
  unfold createJobs
  rw [List.map_map]
  conv_rhs => rw [← List.zipIdx_map_fst 0 mission.jobs, List.map_map]
  rfl

/-- The rows of a mission after rows of one mission were appended. -/
theorem filter_append {ρ : Type} {mission : ρ → String} {rows new : List ρ} {n : String}
    (hnew : ∀ r ∈ new, mission r = n) (m : String) :
    (rows ++ new).filter (fun r => decide (mission r = m)) =
      (rows.filter fun r => decide (mission r = m)) ++ if n = m then new else [] := by
  rw [List.filter_append]
  congr 1
  split
  · next hm =>
    apply List.filter_eq_self.mpr
    intro r hr
    simpa [hm] using hnew r hr
  · next hm =>
    apply List.filter_eq_nil_iff.mpr
    intro r hr
    simpa [hnew r hr] using hm

theorem scheduledRuns_of_fresh {m : String}
    (hfresh : ∀ r ∈ db.startCommands.rows, r.missionId ≠ m) : db.scheduledRuns m = [] := by
  have hnone : db.startOf m = none := by
    apply List.find?_eq_none.mpr
    intro r hr
    simpa using hfresh r hr
  unfold scheduledRuns
  rw [hnone]
  rfl

section Appended

variable (h : db.Exact) (hc : Current db command mission)
  (hs : Starts P command mission scheduledAt (createJobs mission binding ids) db db')

include hs

theorem scheduledRuns_of_starts (m : String) :
    db'.scheduledRuns m = if command.missionId = m then
      (scheduledResult mission command (createJobs mission binding ids)).runs
    else db.scheduledRuns m := by
  unfold scheduledRuns startOf
  rw [hs.startCommands, List.find?_append]
  split
  · next hm =>
    have hnone : db.startCommands.rows.find? (fun r => decide (r.missionId = m)) = none := by
      apply List.find?_eq_none.mpr
      intro r hr
      simpa [hm] using hs.fresh r hr
    rw [hnone]
    simp [startRow, hm]
  · next hm =>
    simp [startRow, hm]

include h hc

theorem attempts_of_starts (m : String) :
    (db'.attemptsOf m).map AttemptRow.identity = db'.scheduledRuns m := by
  have hnew : ∀ r ∈ (createJobs mission binding ids).map (attemptRow mission),
      r.missionId = command.missionId := by
    intro r hr
    obtain ⟨s, _, rfl⟩ := List.mem_map.mp hr
    exact hc.same
  unfold attemptsOf
  rw [scheduledRuns_of_starts hs, hs.attempts, filter_append hnew, List.map_append,
    show (db.attempts.rows.filter fun r => decide (r.missionId = m)).map
      AttemptRow.identity = db.scheduledRuns m from h.attempts m]
  split
  · next hm =>
    rw [← hm, scheduledRuns_of_fresh hs.fresh, List.map_map]
    rfl
  · rw [List.map_nil, List.append_nil]

theorem outbox_of_starts (m : String) : (db'.outboxOf m).map OutboxRow.dispatch =
    (db'.scheduledRuns m).map ScheduledRunIdentity.dispatch := by
  have hnew : ∀ r ∈ (createJobs mission binding ids).map
      (outboxRow mission command scheduledAt), r.missionId = command.missionId := by
    intro r hr
    obtain ⟨s, _, rfl⟩ := List.mem_map.mp hr
    exact hc.same
  unfold outboxOf
  rw [scheduledRuns_of_starts hs, hs.outbox, filter_append hnew, List.map_append,
    show (db.outbox.rows.filter fun r => decide (r.missionId = m)).map
      OutboxRow.dispatch = (db.scheduledRuns m).map ScheduledRunIdentity.dispatch from h.outbox m]
  split
  · next hm =>
    rw [← hm, scheduledRuns_of_fresh hs.fresh]
    simp only [List.map_nil, List.nil_append, List.map_map, scheduledResult]
    rfl
  · rw [List.map_nil, List.append_nil]

/-- The database that a start commits is exact. -/
theorem exact_of_starts : db'.Exact := by
  have hjobs : db'.jobs = db.jobs := by rw [hs.rest]
  have hmissions : db'.missions.rows.map MissionRow.key =
      db.missions.rows.map MissionRow.key := by
    rw [hs.missions]
    exact Table.map_key_update fun _ => by rfl
  constructor
  · rw [hs.startCommands, List.map_append]
    apply h.one.append (List.nodup_singleton _)
    intro m hm hnew
    obtain ⟨r, hr, rfl⟩ := List.mem_map.mp hm
    exact hs.fresh r hr (List.mem_singleton.mp hnew)
  · exact attempts_of_starts h hc hs
  · exact outbox_of_starts h hc hs
  · intro c hmem
    rw [hs.startCommands] at hmem
    rcases List.mem_append.mp hmem with hmem | hmem
    · exact (h.complete c hmem).congr hmissions hjobs
    · cases List.mem_singleton.mp hmem
      have hlogical : (startRow P command mission scheduledAt
          (createJobs mission binding ids)).result.runs.map (·.logicalJobId) =
          mission.jobs.map (·.jobId) := by
        rw [← createJobs_logicalJobId mission binding ids]
        simp [startRow, scheduledResult]
      rw [hlogical]
      have hcurrent := hc.jobs.congr hmissions hjobs
      rw [hc.same] at hcurrent
      exact hcurrent

end Appended

end Commit

/-! ## The other services -/

section Services

open MissionDb

variable {P : PlanningPlatform} {db db' : MissionDb}

/-- The tables of missions, of their jobs and of their starts are the same. -/
structure Untouched (db db' : MissionDb) : Prop where
  starts : db'.startCommands = db.startCommands
  attempts : db'.attempts = db.attempts
  outbox : db'.outbox = db.outbox
  missions : db'.missions = db.missions
  jobs : db'.jobs = db.jobs

theorem Untouched.refl (db : MissionDb) : Untouched db db := ⟨rfl, rfl, rfl, rfl, rfl⟩

theorem Untouched.retains (h : Untouched db db') : Retains db db' := by
  constructor
  · exact h.starts
  · rw [h.attempts]
  · rw [h.outbox]
  · rw [h.missions]
    exact fun _ hk => hk
  · intro k _
    unfold jobsOf
    rw [h.jobs]

theorem untouched_of_createPlan {command : CreateTestPlanCommand} {plan : TestPlanRevision}
    (h : createPlan P command db = .ok (plan, db')) : Untouched db db' := by
  unfold createPlan at h
  obtain ⟨draft, _, h⟩ := bind_eq_ok.mp h
  unfold saveDraft at h
  split at h
  · cases h
  split at h
  · cases h
  split at h
  · split at h
    · cases h
    · cases h
      exact Untouched.refl db
  split at h
  · cases h
  split at h
  · cases h
    exact ⟨rfl, rfl, rfl, rfl, rfl⟩
  · cases h

theorem untouched_of_approvePlan {command : ApproveTestPlanInput} {now : Timestamp}
    {plan : TestPlanRevision} (h : approvePlan P command now db = .ok (plan, db')) :
    Untouched db db' := by
  unfold approvePlan at h
  split at h
  · cases h
  split at h
  · cases h
  split at h
  · cases h
  obtain ⟨_, _, h⟩ := bind_eq_ok.mp h
  unfold approveStored at h
  split at h
  · split at h
    · cases h
    · cases h
      exact Untouched.refl db
  split at h
  · cases h
  split at h
  · cases h
  split at h
  · cases h
  · cases h
  split at h
  · cases h
  dsimp only at h
  split at h
  · cases h
  · cases h
    exact ⟨rfl, rfl, rfl, rfl, rfl⟩

theorem untouched_of_createTarget {input : CreateTargetRevisionInput} {key : String}
    {target : TargetRevision} (h : createTarget P input key db = .ok (target, db')) :
    Untouched db db' := by
  unfold createTarget at h
  obtain ⟨revision, _, h⟩ := bind_eq_ok.mp h
  unfold saveTarget at h
  split at h
  · split at h
    · cases h
    · cases h
      exact Untouched.refl db
  dsimp only at h
  split at h
  · cases h
  split at h
  · cases h
  obtain ⟨heads, _, h⟩ := bind_eq_ok.mp h
  split at h
  · cases h
    exact ⟨rfl, rfl, rfl, rfl, rfl⟩
  · cases h

theorem rows_of_insertFresh {ρ κ : Type} [DecidableEq κ] {key : ρ → κ} (t : Table ρ key)
    (rows : List ρ) : ∃ new, (insertFresh t rows).rows = t.rows ++ new ∧ ∀ r ∈ new, r ∈ rows := by
  induction rows generalizing t with
  | nil => exact ⟨[], by simp [insertFresh], by simp⟩
  | cons r rows ih =>
    obtain ⟨new, hrows, hnew⟩ := ih ((t.insert r).getD t)
    cases hi : t.insert r with
    | none =>
      rw [hi] at hrows
      refine ⟨new, ?_, fun x hx => List.mem_cons_of_mem _ (hnew x hx)⟩
      simpa [insertFresh, hi] using hrows
    | some u =>
      rw [hi] at hrows
      refine ⟨r :: new, ?_, ?_⟩
      · have hu := Table.rows_of_insert hi
        simpa [insertFresh, hi, hu] using hrows
      · intro x hx
        rcases List.mem_cons.mp hx with rfl | hx
        · exact List.mem_cons_self
        · exact List.mem_cons_of_mem _ (hnew x hx)

/-- New jobs of one mission are not among the jobs of another. -/
theorem jobsOf_insertFresh {m : String} {revision : ℕ} {rows : List ExecutionJobRow}
    (hrows : ∀ r ∈ rows, (r.missionId, r.missionRevision) ≠ (m, revision))
    (hj : db'.jobs = insertFresh db.jobs rows) : jobsOf db' m revision = jobsOf db m revision := by
  obtain ⟨new, hnew, hmem⟩ := rows_of_insertFresh db.jobs rows
  unfold jobsOf
  rw [hj, hnew, List.filter_append]
  have hnone : new.filter (fun r => decide (r.missionId = m ∧ r.missionRevision = revision)) =
      [] := by
    apply List.filter_eq_nil_iff.mpr
    intro r hr
    simpa using hrows r (hmem r hr)
  rw [hnone, List.append_nil]

/-- The jobs of a compiled mission belong to it. -/
theorem owned_of_compile {Q : Platform} {plan : TestPlanRevision} {mission : TestMission}
    {target : TargetCapabilitySummary} {compiled : CompiledMission}
    (h : compile Q plan mission target = .ok compiled) :
    ∀ job ∈ compiled.jobs.toList, job.missionId = compiled.missionId ∧
      job.missionRevision = compiled.missionRevision := by
  have hjob : ∀ {t : TestCase} {job : ExecutionJob}, compileJob Q mission target t = .ok job →
      job.missionId = mission.missionId ∧ job.missionRevision = mission.revision := by
    intro t job hj
    unfold compileJob refuse at hj
    split at hj
    · cases hj
    split at hj
    · cases hj
    obtain ⟨_, _, hj⟩ := bind_eq_ok.mp hj
    cases hj
    exact ⟨rfl, rfl⟩
  unfold compile refuse at h
  split at h
  · cases h
  split at h
  · cases h
  split at h
  · cases h
  split at h
  · cases h
  obtain ⟨first, hfirst, h⟩ := bind_eq_ok.mp h
  obtain ⟨rest, hrest, h⟩ := bind_eq_ok.mp h
  cases h
  intro job hj
  rcases List.mem_cons.mp hj with rfl | hj
  · exact hjob hfirst
  · obtain ⟨t, _, ht⟩ := exists_of_mapM hrest job hj
    exact hjob ht

theorem owned_of_intakeMission {Q : Platform} {now : Timestamp} {command : CreateMissionCommand}
    {target : Option TargetRevision} {plan : Option TestPlanRevision}
    {input : SaveCompiledMissionInput} (h : intakeMission Q now command target plan = .ok input) :
    ∀ job ∈ input.mission.jobs.toList, job.missionId = input.mission.missionId ∧
      job.missionRevision = input.mission.missionRevision := by
  unfold intakeMission at h
  split at h
  · split at h
    · cases h
    split at h
    · cases h
    obtain ⟨_, _, h⟩ := bind_eq_ok.mp h
    obtain ⟨policy, _, h⟩ := bind_eq_ok.mp h
    obtain ⟨mission, hm, h⟩ := bind_eq_ok.mp h
    cases h
    exact owned_of_compile (mapError_eq_ok.mp hm)
  · cases h

/-- A mission that is created is the stored one of its key, or its rows are added. -/
theorem createMission_cases {now : Timestamp} {command : CreateMissionCommand} {row : MissionRow}
    (h : createMission P now command db = .ok (row, db')) :
    db' = db ∨ ∃ input missions target plan,
      intakeMission P.toPlatform now command target plan = .ok input ∧
      db.missions.insert (missionRow input) = some missions ∧ db' = { db with
        missions := missions
        missionRevisions := insertFresh db.missionRevisions
          [⟨input.mission.missionId, input.mission.missionRevision, input.mission⟩]
        schedulingHeads := insertFresh db.schedulingHeads
          [⟨input.mission.missionId, input.mission.missionRevision, 1,
            input.mission.compiledHash⟩]
        jobs := insertFresh db.jobs (input.mission.jobs.toList.map jobRow) } := by
  unfold createMission at h
  split at h
  · obtain ⟨_, _, h⟩ := bind_eq_ok.mp h
    cases h
    exact .inl rfl
  obtain ⟨input, hi, h⟩ := bind_eq_ok.mp h
  obtain ⟨saved, hsaved, h⟩ := bind_eq_ok.mp h
  split at h
  · cases h
  obtain ⟨_, _, h⟩ := bind_eq_ok.mp h
  cases h
  unfold saveCompiledMission at hsaved
  split at hsaved
  · cases hsaved
  split at hsaved
  · cases hsaved
    exact .inl rfl
  next missions hmissions =>
  cases hsaved
  exact .inr ⟨input, missions, _, _, hi, hmissions, rfl⟩

theorem retains_of_createMission {now : Timestamp} {command : CreateMissionCommand}
    {row : MissionRow} (h : createMission P now command db = .ok (row, db')) : Retains db db' := by
  rcases createMission_cases h with rfl | ⟨input, missions, _, _, hi, hmissions, rfl⟩
  · exact Retains.refl _
  have hfresh := Table.get_eq_none_of_insert hmissions
  constructor
  · rfl
  · rfl
  · rfl
  · intro k hk
    change k ∈ missions.rows.map MissionRow.key
    rw [Table.rows_of_insert hmissions, List.map_append]
    exact List.mem_append_left _ hk
  · intro k hk
    refine jobsOf_insertFresh ?_ rfl
    intro r hr hkey
    obtain ⟨job, hj, rfl⟩ := List.mem_map.mp hr
    obtain ⟨r', hr', rfl⟩ := List.mem_map.mp hk
    obtain ⟨hid, hrevision⟩ := owned_of_intakeMission hi job hj
    refine Table.get_eq_none_iff.mp hfresh r' hr' ?_
    change r'.key = (input.mission.missionId, input.mission.missionRevision)
    rw [← hid, ← hrevision]
    exact hkey.symm

theorem retains_of_marks {attemptId : String} {version : ℕ} {rewrite : OutboxRow → OutboxRow}
    {hr : ∀ r, (rewrite r).attemptId = r.attemptId} {status : AttemptStatus}
    (hm : Marks attemptId version rewrite hr status db db')
    (hcolumns : ∀ r, ((rewrite r).missionId, (rewrite r).dispatch) = (r.missionId, r.dispatch)) :
    Retains db db' := by
  have hrest := hm.rest
  constructor
  · rw [hrest]
  · rw [hm.attempts]
    apply Table.map_key_rewrite
    intro r
    rfl
  · rw [hm.outbox]
    exact Table.map_key_rewrite hcolumns _
  · rw [hrest]
    exact fun _ h => h
  · intro k _
    unfold jobsOf
    rw [hrest]

theorem retains_of_setMissionStatus (missionId : String) (revision : ℕ)
    (status : MissionStatus) : Retains db (setMissionStatus missionId revision status db) := by
  constructor
  · rfl
  · rfl
  · rfl
  · have hkeys : (setMissionStatus missionId revision status db).missions.rows.map
        MissionRow.key = db.missions.rows.map MissionRow.key :=
      Table.map_key_update fun _ => by rfl
    rw [hkeys]
    exact fun _ h => h
  · exact fun _ _ => rfl

/-- A transaction of another service leaves the starts as they are. -/
theorem retains_of_service (db : MissionDb) (e : MissionEvent) :
    Retains db (MissionWorld.step P ⟨db, fun _ => none⟩ e).db := by
  cases e with
  | savePrdDocument document => exact Untouched.retains ⟨rfl, rfl, rfl, rfl, rfl⟩
  | createPlan command =>
    exact transact_keeps (fun _ _ h => (untouched_of_createPlan h).retains) (Retains.refl db)
  | approvePlan command now =>
    exact transact_keeps (fun _ _ h => (untouched_of_approvePlan h).retains) (Retains.refl db)
  | createTarget input key =>
    exact transact_keeps (fun _ _ h => (untouched_of_createTarget h).retains) (Retains.refl db)
  | createMission now command =>
    exact transact_keeps (fun _ _ h => retains_of_createMission h) (Retains.refl db)
  | replay request command =>
    have hdb : (MissionWorld.replay P request command ⟨db, fun _ => none⟩).2.db = db := by
      unfold MissionWorld.replay
      split <;> rfl
    change Retains db (MissionWorld.replay P request command ⟨db, fun _ => none⟩).2.db
    rw [hdb]
    exact Retains.refl db
  | load request => exact Retains.refl db
  | schedule request scheduledAt ids => exact Retains.refl db
  | markAccepted attemptId receipt version =>
    refine transact_keeps (fun _ _ h => ?_) (Retains.refl db)
    rcases markDispatchAccepted_cases h with ⟨_, _, _, rfl⟩ | ⟨_, _, _, _, _, _, hm⟩
    · exact Retains.refl _
    · exact retains_of_marks hm fun _ => rfl
  | markBlocked attemptId version =>
    refine transact_keeps (fun _ _ h => ?_) (Retains.refl db)
    rcases markDispatchBlocked_cases h with ⟨_, _, _, rfl⟩ | ⟨_, _, _, _, hm⟩
    · exact Retains.refl _
    · exact retains_of_marks hm fun _ => rfl
  | setMissionStatus missionId revision status =>
    exact retains_of_setMissionStatus missionId revision status
  | restart => exact Retains.refl db

end Services

/-! ## Runs -/

open MissionDb

def StartPhase.Current (db : MissionDb) : StartPhase → Prop
  | .unanswered _ => True
  | .loaded command mission _ => Mission.Current db command mission

/-- The open transaction has performed the first statements of a start of a current mission. -/
structure OpenStart.Underway (P : Platform) (db : MissionDb) (o : OpenStart)
    (command : StartMissionCommand) (mission : SchedulingMission) (binding : MissionBinding)
    (scheduledAt : Timestamp) (ids : ℕ → AllocatedIds) (performed : List Write) : Prop where
  current : Current db command mission
  result : o.result = scheduledResult mission command (createJobs mission binding ids)
  writes : startWrites P command mission scheduledAt (createJobs mission binding ids) =
    performed ++ o.rest
  working : perform performed db = .ok o.working

structure StartWorld.Exact (P : PlanningPlatform) (w : StartWorld) : Prop where
  db : w.db.Exact
  requests : ∀ i, ∀ phase ∈ w.requests i, phase.Current w.db
  inProgress : ∀ o ∈ w.inProgress, ∃ command mission binding scheduledAt ids performed,
    o.Underway P.toPlatform w.db command mission binding scheduledAt ids performed

namespace StartWorld

variable {P : PlanningPlatform} {w : StartWorld}

theorem Exact.visible (h : w.Exact P) : Grows w.db w.visible := by
  unfold StartWorld.visible
  split
  · next o ho =>
    obtain ⟨command, mission, binding, scheduledAt, ids, performed, hu⟩ := h.inProgress o ho
    have hmem : ∀ write ∈ performed, write ∈ startWrites P.toPlatform command mission
        scheduledAt (createJobs mission binding ids) := by
      intro write hw
      rw [hu.writes]
      exact List.mem_append_left _ hw
    exact grows_of_perform hmem hu.working
  · exact Grows.refl _

theorem Exact.setRequest (h : w.Exact P) (request : ℕ) {phase : Option StartPhase}
    (hphase : ∀ p ∈ phase, p.Current w.db) : (w.setRequest request phase).Exact P where
  db := h.db
  requests i p hp := by
    unfold StartWorld.setRequest at hp
    dsimp only at hp
    split at hp
    · exact hphase p hp
    · exact h.requests i p hp
  inProgress := h.inProgress

theorem current_of_load {db db' : MissionDb} (hg : Grows db db') {command : StartMissionCommand}
    {mission : SchedulingMission}
    (h : loadMissionForScheduling db' command.missionId = .ok (some mission)) :
    Current db command mission := by
  unfold loadMissionForScheduling at h
  split at h
  · cases h
  next row hrow =>
  split at h
  · cases h
  next revision hrevision =>
  obtain ⟨jobs, hjobs, h⟩ := bind_eq_ok.mp h
  cases h
  have hids : jobs.map (·.jobId) = (jobsOf db' command.missionId row.revision).map (·.jobId) := by
    refine map_eq_of_mapM (fun r j hj => ?_) hjobs
    unfold schedulingJob at hj
    split at hj
    · cases hj
    · cases hj
      rfl
  obtain ⟨hmem, hid⟩ := mem_of_currentMission hrow
  have hcomplete : db'.Complete command.missionId row.revision (jobs.map (·.jobId)) := by
    refine ⟨List.mem_map.mpr ⟨row, hmem, ?_⟩, hids⟩
    rw [← hid]
    rfl
  exact ⟨rfl, hcomplete.congr hg.missions.symm hg.jobs.symm⟩

theorem Exact.replay (h : w.Exact P) (request : ℕ) (command : StartMissionCommand) :
    (StartWorld.replay P request command w).2.Exact P := by
  unfold StartWorld.replay
  split
  · exact h.setRequest request (by simp)
  · exact h.setRequest request (by simp)
  · apply h.setRequest request
    rintro p ⟨⟩
    trivial

theorem Exact.load (h : w.Exact P) (request : ℕ) : (StartWorld.load request w).2.Exact P := by
  unfold StartWorld.load
  split
  · split
    · exact h.setRequest request (by simp)
    · exact h.setRequest request (by simp)
    · next mission hmission =>
      split
      · exact h.setRequest request (by simp)
      · apply h.setRequest request
        rintro p ⟨⟩
        exact current_of_load h.visible hmission
  · exact h

theorem Exact.begin (h : w.Exact P) (request : ℕ) (scheduledAt : Timestamp)
    (ids : ℕ → AllocatedIds) : (StartWorld.begin P request scheduledAt ids w).2.Exact P := by
  unfold StartWorld.begin
  split
  · next command mission binding hphase =>
    have hcleared : (w.setRequest request none).Exact P := h.setRequest request (by simp)
    dsimp only
    split
    · exact hcleared
    · split
      · exact hcleared
      · exact hcleared
      · refine ⟨hcleared.db, hcleared.requests, ?_⟩
        rintro o ⟨⟩
        exact ⟨command, mission, binding, scheduledAt, ids, [], h.requests request _ hphase, rfl,
          rfl, rfl⟩
  · exact h

/-- The commit of the open transaction is a start of a current mission. -/
theorem starts_of_commit (h : w.Exact P) {o : OpenStart} (ho : w.inProgress = some o)
    (hrest : o.rest = []) : ∃ command mission binding scheduledAt ids,
      Current w.db command mission ∧ Starts P.toPlatform command mission scheduledAt
        (createJobs mission binding ids) w.db o.working := by
  obtain ⟨command, mission, binding, scheduledAt, ids, performed, hu⟩ := h.inProgress o ho
  have hall : performed = startWrites P.toPlatform command mission scheduledAt
      (createJobs mission binding ids) := by
    rw [hu.writes, hrest, List.append_nil]
  have hwritten : writeSchedule P.toPlatform command mission scheduledAt
      (createJobs mission binding ids) w.db =
      .ok (scheduledResult mission command (createJobs mission binding ids), o.working) := by
    rw [← perform_startWrites, ← hall, hu.working]
    rfl
  obtain ⟨_, hstarts⟩ := starts_of_writeSchedule hwritten
  exact ⟨command, mission, binding, scheduledAt, ids, hu.current, hstarts⟩

/-- The commit of the open transaction leaves an exact database that keeps the missions. -/
theorem exact_of_commit (h : w.Exact P) {o : OpenStart} (ho : w.inProgress = some o)
    (hrest : o.rest = []) : o.working.Exact ∧ Grows w.db o.working := by
  have hvisible : Grows w.db o.working := by
    have hv := h.visible
    unfold StartWorld.visible at hv
    rwa [ho] at hv
  obtain ⟨_, _, _, _, _, hcurrent, hstarts⟩ := starts_of_commit h ho hrest
  exact ⟨exact_of_starts h.db hcurrent hstarts, hvisible⟩

theorem current_of_grows {db db' : MissionDb} (hg : Grows db db') {phase : StartPhase}
    (h : phase.Current db) : phase.Current db' := by
  cases phase with
  | unanswered command => trivial
  | loaded command mission binding => exact ⟨h.same, h.jobs.congr hg.missions hg.jobs⟩

theorem current_of_retains {db db' : MissionDb} (hr : Retains db db') {phase : StartPhase}
    (h : phase.Current db) : phase.Current db' := by
  cases phase with
  | unanswered command => trivial
  | loaded command mission binding => exact ⟨h.same, h.jobs.retain hr⟩

theorem Exact.write (h : w.Exact P) : (StartWorld.write w).2.Exact P := by
  unfold StartWorld.write
  split
  · exact h
  next o ho =>
  split
  · next hrest =>
    obtain ⟨hexact, hgrows⟩ := exact_of_commit h ho hrest
    exact ⟨hexact, fun i p hp => current_of_grows hgrows (h.requests i p hp), by simp⟩
  · next statement rest hrest =>
    split
    · next working hworking =>
      refine ⟨h.db, h.requests, ?_⟩
      rintro o' ⟨⟩
      obtain ⟨command, mission, binding, scheduledAt, ids, performed, hu⟩ := h.inProgress o ho
      refine ⟨command, mission, binding, scheduledAt, ids, performed ++ [statement], hu.current,
        hu.result, ?_, ?_⟩
      · rw [hu.writes, hrest, List.append_assoc]
        rfl
      · rw [perform_append, hu.working, ok_bind, perform_cons, hworking]
        rfl
    · exact ⟨h.db, h.requests, by simp⟩

theorem Exact.service (h : w.Exact P) (e : MissionEvent) :
    (StartWorld.service P e w).Exact P := by
  unfold StartWorld.service
  split
  · exact h
  · next hclosed =>
    have hretains := retains_of_service (P := P) w.db e
    refine ⟨h.db.retain hretains, fun i p hp => current_of_retains hretains (h.requests i p hp),
      ?_⟩
    intro o ho
    change w.inProgress = some o at ho
    simp [ho] at hclosed

theorem Exact.step (h : w.Exact P) (e : StartEvent) : (w.step P e).Exact P := by
  cases e with
  | service e => exact h.service e
  | replay request command => exact h.replay request command
  | load request => exact h.load request
  | begin request scheduledAt ids => exact h.begin request scheduledAt ids
  | write => exact h.write
  | fail error =>
    unfold StartWorld.step StartWorld.respond
    dsimp only
    split
    · exact ⟨h.db, h.requests, by simp⟩
    · exact h
  | restart =>
    constructor
    · exact h.db
    · intro i p hp
      cases hp
    · simp [StartWorld.step, respond]

/-- Every world of a run is exact. -/
theorem exact_after (events : List StartEvent) : (after P events).Exact P := by
  unfold after
  refine List.foldlRecOn (motive := fun w : StartWorld => w.Exact P) events _ ?_ ?_
  · constructor
    · exact MissionDb.exact_empty
    · intro i p hp
      cases hp
    · simp [initial]
  · intro w hw e _
    exact hw.step e

/-! ### Replies -/

/-- A refused start leaves the database as it is. -/
theorem db_of_error {e : StartEvent} {error : ScheduleError}
    (h : (w.respond P e).1 = some (.error error)) : (w.step P e).db = w.db := by
  unfold StartWorld.step
  cases e with
  | service e => cases h
  | replay request command =>
    unfold StartWorld.respond StartWorld.replay
    dsimp only
    split <;> rfl
  | load request =>
    unfold StartWorld.respond StartWorld.load
    dsimp only
    split
    · split
      · rfl
      · rfl
      · split <;> rfl
    · rfl
  | begin request scheduledAt ids =>
    unfold StartWorld.respond StartWorld.begin
    dsimp only
    split
    · split
      · rfl
      · split <;> rfl
    · rfl
  | write =>
    unfold StartWorld.respond StartWorld.write at h ⊢
    dsimp only at h ⊢
    split
    · rfl
    next o ho =>
    simp only [ho] at h
    split
    · next hrest =>
      rw [hrest] at h
      cases h
    · split <;> rfl
  | fail error =>
    unfold StartWorld.respond
    dsimp only
    split <;> rfl
  | restart => rfl

theorem replayResult_of_hash {Q : Platform} {c : StartCommandRow} {command : StartMissionCommand}
    (h : c.commandHash = missionStartCommandHash Q command) :
    replayResult Q c command = .ok c.result := by
  unfold replayResult
  rw [if_neg (not_not.mpr h)]

/-- The first turn of a repeated start answers with the stored result. -/
theorem replay_of_stored (hw : w.Exact P) {command : StartMissionCommand} {c : StartCommandRow}
    (hc : c ∈ w.db.startCommands.rows) (hkey : c.idempotencyKey = command.idempotencyKey)
    (hhash : c.commandHash = missionStartCommandHash P.toPlatform command) (request : ℕ) :
    (w.respond P (.replay request command)).1 = some (.ok c.result) ∧
      (w.step P (.replay request command)).db = w.db := by
  have hget : w.visible.startCommands.get command.idempotencyKey = some c :=
    Table.get_eq_some_iff.mpr ⟨hw.visible.starts c hc, hkey⟩
  have hreplay : replayMissionSchedule P.toPlatform command w.visible = .ok (some c.result) := by
    unfold replayMissionSchedule
    rw [hget]
    dsimp only
    rw [replayResult_of_hash hhash]
    rfl
  unfold StartWorld.step StartWorld.respond StartWorld.replay
  dsimp only
  rw [hreplay]
  exact ⟨rfl, rfl⟩

/-- A repeated start that reaches its transaction answers with the stored result. -/
theorem begin_of_stored {command : StartMissionCommand} {c : StartCommandRow}
    (hc : c ∈ w.db.startCommands.rows) (hkey : c.idempotencyKey = command.idempotencyKey)
    (hhash : c.commandHash = missionStartCommandHash P.toPlatform command) {request : ℕ}
    {mission : SchedulingMission} {binding : MissionBinding}
    (hphase : w.requests request = some (.loaded command mission binding))
    (hclosed : w.inProgress = none) (scheduledAt : Timestamp) (ids : ℕ → AllocatedIds) :
    (w.respond P (.begin request scheduledAt ids)).1 = some (.ok c.result) ∧
      (w.step P (.begin request scheduledAt ids)).db = w.db := by
  have hget : w.db.startCommands.get command.idempotencyKey = some c :=
    Table.get_eq_some_iff.mpr ⟨hc, hkey⟩
  have hcheck : checkStart P.toPlatform command mission binding w.db = .ok (some c.result) := by
    unfold checkStart
    rw [hget]
    dsimp only
    rw [replayResult_of_hash hhash]
    rfl
  unfold StartWorld.step StartWorld.respond StartWorld.begin
  dsimp only
  rw [hphase]
  dsimp only
  rw [hclosed]
  dsimp only
  rw [hcheck]
  exact ⟨rfl, rfl⟩

end StartWorld

/-! ## Exactly once -/

namespace MissionDb

variable {db : MissionDb}

theorem Exact.start_unique (h : db.Exact) {c c' : StartCommandRow}
    (hc : c ∈ db.startCommands.rows) (hc' : c' ∈ db.startCommands.rows)
    (hm : c'.missionId = c.missionId) : c' = c :=
  List.inj_on_of_nodup_map h.one hc' hc hm

theorem Exact.scheduledRuns (h : db.Exact) {c : StartCommandRow}
    (hc : c ∈ db.startCommands.rows) : db.scheduledRuns c.missionId = c.result.runs := by
  have hstart : db.startOf c.missionId = some c := by
    cases hf : db.startOf c.missionId with
    | none =>
      have hnone := List.find?_eq_none.mp hf c hc
      simp at hnone
    | some c' =>
      have hid : c'.missionId = c.missionId := by simpa using List.find?_some hf
      rw [h.start_unique hc (List.mem_of_find?_eq_some hf) hid]
  unfold MissionDb.scheduledRuns
  rw [hstart]
  rfl

/-- Every attempt has exactly one dispatch. -/
theorem Exact.dispatch_unique (h : db.Exact) {a : AttemptRow} (ha : a ∈ db.attempts.rows) :
    ∃! r, r ∈ db.outbox.rows ∧ r.missionId = a.missionId ∧ r.dispatch = a.identity.dispatch := by
  have hmem : a.identity.dispatch ∈ (db.outboxOf a.missionId).map OutboxRow.dispatch := by
    rw [h.outbox, ← h.attempts, List.map_map]
    refine List.mem_map.mpr ⟨a, List.mem_filter.mpr ⟨ha, by simp⟩, rfl⟩
  obtain ⟨r, hr, hd⟩ := List.mem_map.mp hmem
  obtain ⟨hrow, hid⟩ := List.mem_filter.mp hr
  refine ⟨r, ⟨hrow, of_decide_eq_true hid, hd⟩, ?_⟩
  rintro r' ⟨hr', _, hd'⟩
  have hkey : r'.attemptId = r.attemptId := congrArg Prod.fst (hd'.trans hd.symm)
  exact List.inj_on_of_nodup_map db.outbox.nodup hr' hrow hkey

end MissionDb

section ExactlyOnce

variable {P : PlanningPlatform}

end ExactlyOnce

end Qualigence.Mission
