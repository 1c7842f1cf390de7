import Qualigence.Foundation.History
import Qualigence.Mission.Checks
import Qualigence.Mission.Scheduled

/-! # Jobs of the dispatch outbox

Every row of the dispatch outbox carries the job of a test case of an approved plan. The
job is read again exactly when the open texts of the test case are not blank, so that one
test case with a blank text stops every dispatch that is read with its row.
-/

namespace Qualigence.Mission

open Foundation Protocol

/-- A test case of an approved plan of the store. -/
def MissionDb.Approved (db : MissionDb) (t : TestCase) : Prop :=
  ∃ r ∈ db.plans.rows, r.plan.status = .approved ∧ t ∈ r.plan.testCases.toList

/-- The target of a dispatch is read back. -/
def TargetReadable (P : Platform) (dispatch : MissionDispatchDescriptor)
    (binding : MissionBinding) : Prop :=
  Job.parseTargetRef P (missionTargetRef dispatch.targetUrl binding.configuration).toValue =
    .ok (missionTargetRef dispatch.targetUrl binding.configuration)

def PolicyReadable (P : Platform) (policy : ApprovedExecutionPolicy) : Prop :=
  Job.parseExecutionPolicySnapshot P policy.toValue = .ok policy

structure MissionRow.Sound (P : Platform) (r : MissionRow) : Prop where
  missionId : isBlank r.missionId = false
  projectId : isBlank r.projectId = false
  revision : r.revision = 1
  target : ∀ binding ∈ r.dispatch.binding, TargetReadable P r.dispatch binding

structure CompiledMission.Sound (P : Platform) (m : CompiledMission) : Prop where
  policy : PolicyReadable P m.executionPolicy
  budgets : ∀ job ∈ m.jobs.toList, job.budget = missionBudget

/-- A row of a job that compiling made of an approved test case. -/
structure ExecutionJobRow.Sound (db : MissionDb) (r : ExecutionJobRow) : Prop where
  approved : db.Approved r.snapshot
  testCaseId : r.testCaseId = r.snapshot.id
  objective : r.objective = r.snapshot.objective
  fits : r.snapshot.steps.toList.length ≤ 100
  capabilities : ∀ c ∈ r.requiredCapabilities, c ≠ ""

structure SchedulingMissionJob.Sound (db : MissionDb) (j : SchedulingMissionJob) : Prop where
  approved : db.Approved j.snapshot
  testCaseId : j.testCaseId = j.snapshot.id
  objective : j.objective = j.snapshot.objective
  fits : j.snapshot.steps.toList.length ≤ 100
  capabilities : ∀ c ∈ j.requiredCapabilities, c ≠ ""
  budget : j.budget = missionBudget

structure SchedulingMission.Sound (P : Platform) (db : MissionDb) (m : SchedulingMission) :
    Prop where
  missionId : isBlank m.missionId = false
  projectId : isBlank m.projectId = false
  revision : m.missionRevision = 1
  target : ∀ binding ∈ m.dispatch.binding, TargetReadable P m.dispatch binding
  policy : PolicyReadable P m.executionPolicy
  jobs : ∀ j ∈ m.jobs, j.Sound db

/-- An outbox row carries the checked job of an approved test case. -/
structure OutboxRow.Carries (P : Platform) (r : OutboxRow) (t : TestCase)
    (job : AcceptedMissionExecutionJob) (capabilities : List String) : Prop where
  acceptedJob : r.acceptedJob = job.toValue
  checked : Checked P job
  objective : job.objective = t.objective
  steps : job.plan.steps = t.steps
  requiredCapabilities : r.requiredCapabilities = AppTarget.strings capabilities
  capabilities : ∀ c ∈ capabilities, c ≠ ""

def OutboxRow.Sound (P : Platform) (db : MissionDb) (r : OutboxRow) : Prop :=
  ∃ t job capabilities, db.Approved t ∧ r.Carries P t job capabilities

/-- What every database of a run satisfies. -/
structure MissionDb.Sound (P : PlanningPlatform) (db : MissionDb) : Prop where
  plans : ∀ r ∈ db.plans.rows, ∀ t ∈ r.plan.testCases.toList, t.Identified
  targets : ∀ r ∈ db.targets.rows, r.revision.configuration.Valid P
  missions : ∀ r ∈ db.missions.rows, r.Sound P.toPlatform
  revisions : ∀ r ∈ db.missionRevisions.rows, r.compiled.Sound P.toPlatform
  jobs : ∀ r ∈ db.jobs.rows, r.Sound db
  outbox : ∀ r ∈ db.outbox.rows, r.Sound P.toPlatform db

/-- A start that was loaded has a mission that can be scheduled with its binding. -/
def StartPhase.Sound (P : Platform) (db : MissionDb) : StartPhase → Prop
  | .unanswered _ => True
  | .loaded _ mission binding => mission.Sound P db ∧ mission.dispatch.binding = some binding

structure MissionWorld.Sound (P : PlanningPlatform) (w : MissionWorld) : Prop where
  db : w.db.Sound P
  requests : ∀ i, ∀ phase ∈ w.requests i, phase.Sound P.toPlatform w.db

/-! ## Databases that keep their plans -/

/-- The plans of a database stay, and a plan is added only in a given way. -/
structure MissionDb.Keeps (added : PlanRow → Prop) (db db' : MissionDb) : Prop where
  stay : ∀ r ∈ db.plans.rows, r ∈ db'.plans.rows
  new : ∀ r ∈ db'.plans.rows, r ∈ db.plans.rows ∨ added r

section Keeps

variable {P : Platform} {added : PlanRow → Prop} {db db' : MissionDb}
  (hk : MissionDb.Keeps added db db')

include hk

theorem MissionDb.Approved.mono {t : TestCase} (h : db.Approved t) : db'.Approved t := by
  obtain ⟨r, hr, h⟩ := h
  exact ⟨r, hk.stay r hr, h⟩

theorem ExecutionJobRow.Sound.mono {r : ExecutionJobRow} (h : r.Sound db) : r.Sound db' :=
  { h with approved := h.approved.mono hk }

theorem SchedulingMissionJob.Sound.mono {j : SchedulingMissionJob} (h : j.Sound db) :
    j.Sound db' :=
  { h with approved := h.approved.mono hk }

theorem OutboxRow.Sound.mono {r : OutboxRow} (h : r.Sound P db) : r.Sound P db' := by
  obtain ⟨t, job, capabilities, ha, h⟩ := h
  exact ⟨t, job, capabilities, ha.mono hk, h⟩

theorem StartPhase.Sound.mono {phase : StartPhase} (h : phase.Sound P db) :
    phase.Sound P db' := by
  cases phase with
  | unanswered command => trivial
  | loaded command mission binding =>
    exact ⟨{ h.1 with jobs := fun j hj => (h.1.jobs j hj).mono hk }, h.2⟩

end Keeps

theorem MissionDb.keeps_of_eq {added : PlanRow → Prop} {db db' : MissionDb}
    (h : db'.plans = db.plans) : MissionDb.Keeps added db db' := by
  constructor
  · intro r hr
    rwa [h]
  · intro r hr
    rw [h] at hr
    exact .inl hr

/-! ## Plans and targets -/

section Plans

variable {P : PlanningPlatform} {added : PlanRow → Prop} {db db' : MissionDb}

theorem mem_of_latestPlan {planId : String} {plan : TestPlanRevision}
    (h : latestPlan db planId = some plan) : ∃ r ∈ db.plans.rows, r.plan = plan := by
  have hmem : ∀ b ∈ latestPlan db planId, ∃ r ∈ db.plans.rows, r.plan = b := by
    unfold latestPlan
    refine List.foldlRecOn (motive := fun best => ∀ b ∈ best, ∃ r ∈ db.plans.rows, r.plan = b)
      _ _ (by simp) ?_
    intro best hbest r hr
    have hnew : ∀ b ∈ some r.plan, ∃ r ∈ db.plans.rows, r.plan = b := by
      rintro b ⟨⟩
      exact ⟨r, List.mem_of_mem_filter hr, rfl⟩
    split
    · split
      · exact hnew
      · exact hbest
    · exact hnew
  exact hmem plan h

/-- A database that keeps its plans is sound when its new rows are. -/
theorem MissionDb.Sound.extend (h : db.Sound P) (hk : MissionDb.Keeps added db db')
    (plans : ∀ r ∈ db'.plans.rows, r ∈ db.plans.rows ∨
      ∀ t ∈ r.plan.testCases.toList, t.Identified)
    (targets : ∀ r ∈ db'.targets.rows, r ∈ db.targets.rows ∨ r.revision.configuration.Valid P)
    (missions : ∀ r ∈ db'.missions.rows, r ∈ db.missions.rows ∨ r.Sound P.toPlatform)
    (revisions : ∀ r ∈ db'.missionRevisions.rows, r ∈ db.missionRevisions.rows ∨
      r.compiled.Sound P.toPlatform)
    (jobs : ∀ r ∈ db'.jobs.rows, r ∈ db.jobs.rows ∨ r.Sound db')
    (outbox : ∀ r ∈ db'.outbox.rows, r ∈ db.outbox.rows ∨ r.Sound P.toPlatform db') :
    db'.Sound P where
  plans r hr := (plans r hr).elim (h.plans r) id
  targets r hr := (targets r hr).elim (h.targets r) id
  missions r hr := (missions r hr).elim (h.missions r) id
  revisions r hr := (revisions r hr).elim (h.revisions r) id
  jobs r hr := (jobs r hr).elim (fun hr => (h.jobs r hr).mono hk) id
  outbox r hr := (outbox r hr).elim (fun hr => (h.outbox r hr).mono hk) id

theorem mem_of_insert {ρ κ : Type} [DecidableEq κ] {key : ρ → κ} {t u : Table ρ key} {r x : ρ}
    (h : t.insert r = some u) (hx : x ∈ u.rows) : x ∈ t.rows ∨ x = r := by
  rw [Table.rows_of_insert h] at hx
  simpa using hx

/-- A database that gains a plan. -/
theorem MissionDb.Sound.insertPlan (h : db.Sound P) {r : PlanRow}
    {plans : Table PlanRow PlanRow.key} {planHeads : Table PlanHeadRow (·.planId)}
    (hi : db.plans.insert r = some plans) (hadded : added r)
    (hr : ∀ t ∈ r.plan.testCases.toList, t.Identified) :
    ({ db with plans, planHeads } : MissionDb).Sound P ∧
      MissionDb.Keeps added db { db with plans, planHeads } := by
  have hkeeps : MissionDb.Keeps added db { db with plans, planHeads } := by
    constructor
    · intro x hx
      change x ∈ plans.rows
      rw [Table.rows_of_insert hi]
      exact List.mem_append_left _ hx
    · intro x hx
      rcases mem_of_insert hi hx with hx | rfl
      · exact .inl hx
      · exact .inr hadded
  refine ⟨h.extend hkeeps ?_ (fun _ hx => .inl hx) (fun _ hx => .inl hx) (fun _ hx => .inl hx)
    (fun _ hx => .inl hx) fun _ hx => .inl hx, hkeeps⟩
  intro x hx
  rcases mem_of_insert hi hx with hx | rfl
  · exact .inl hx
  · exact .inr hr

theorem sound_of_createPlan (hP : P.Lawful) (h : db.Sound P) {command : CreateTestPlanCommand}
    {plan : TestPlanRevision} (hc : createPlan P command db = .ok (plan, db')) :
    db'.Sound P ∧ MissionDb.Keeps (fun r => r.plan.status = .draft) db db' := by
  unfold createPlan at hc
  obtain ⟨draft, hd, hc⟩ := bind_eq_ok.mp hc
  have hdraft : draft.status = .draft ∧ ∀ t ∈ draft.testCases.toList, t.Identified := by
    unfold draftOf at hd
    split at hd
    · cases hd
    split at hd
    · cases hd
    split at hd
    · cases hd
    obtain ⟨proposal, hp, hd⟩ := bind_eq_ok.mp hd
    obtain ⟨validated, hv, hd⟩ := bind_eq_ok.mp hd
    exact ⟨status_of_createDraftTestPlan hd,
      identified_of_createDraftTestPlan (fun i => isBlank_shortHash hP _)
        (referenced_of_validate (mapError_eq_ok.mp hv) (referenced_of_parseProposal hp)) hd⟩
  unfold saveDraft at hc
  split at hc
  · cases hc
  split at hc
  · cases hc
  split at hc
  · split at hc
    · cases hc
    · cases hc
      exact ⟨h, MissionDb.keeps_of_eq rfl⟩
  split at hc
  · cases hc
  split at hc
  · next hplans =>
    cases hc
    exact h.insertPlan hplans hdraft.1 hdraft.2
  · cases hc

theorem sound_of_approvePlan (h : db.Sound P) {command : ApproveTestPlanInput}
    {now : Timestamp} {plan : TestPlanRevision}
    (hc : approvePlan P command now db = .ok (plan, db')) :
    db'.Sound P ∧ MissionDb.Keeps (fun r => ∃ plan ∈ latestPlan db command.planId,
      r.plan.testCases = plan.testCases) db db' := by
  unfold approvePlan at hc
  split at hc
  · cases hc
  split at hc
  · cases hc
  split at hc
  · cases hc
  obtain ⟨_, _, hc⟩ := bind_eq_ok.mp hc
  unfold approveStored at hc
  split at hc
  · split at hc
    · cases hc
    · cases hc
      exact ⟨h, MissionDb.keeps_of_eq rfl⟩
  split at hc
  · cases hc
  next current hcurrent =>
  split at hc
  · cases hc
  split at hc
  · cases hc
  · cases hc
  next approved happroved =>
  split at hc
  · cases hc
  next plans hplans =>
  dsimp only at hc
  split at hc
  · cases hc
  cases hc
  have hcases : plan.testCases = current.testCases := by
    unfold approveTestPlan at happroved
    split at happroved
    · split at happroved
      · cases happroved
        rfl
      · cases happroved
    · split at happroved
      · cases happroved
      · cases happroved
        rfl
  refine h.insertPlan hplans ⟨current, hcurrent, hcases⟩ ?_
  obtain ⟨r, hr, rfl⟩ := mem_of_latestPlan hcurrent
  rw [hcases]
  exact h.plans r hr

theorem sound_of_createTarget (hP : P.Lawful) (h : db.Sound P)
    {input : CreateTargetRevisionInput} {key : String} {target : TargetRevision}
    (hc : createTarget P input key db = .ok (target, db')) :
    db'.Sound P ∧ MissionDb.Keeps added db db' := by
  unfold createTarget at hc
  obtain ⟨revision, hr, hc⟩ := bind_eq_ok.mp hc
  have hvalid : revision.configuration.Valid P :=
    valid_of_createTargetRevision hP (mapError_eq_ok.mp hr)
  unfold saveTarget at hc
  split at hc
  · split at hc
    · cases hc
    · cases hc
      exact ⟨h, MissionDb.keeps_of_eq rfl⟩
  dsimp only at hc
  split at hc
  · cases hc
  split at hc
  · cases hc
  obtain ⟨heads, _, hc⟩ := bind_eq_ok.mp hc
  split at hc
  · next targets htargets =>
    cases hc
    have hkeeps : MissionDb.Keeps added db { db with targets, targetHeads := heads } :=
      MissionDb.keeps_of_eq rfl
    refine ⟨h.extend hkeeps (fun _ hx => .inl hx) ?_ (fun _ hx => .inl hx)
      (fun _ hx => .inl hx) (fun _ hx => .inl hx) fun _ hx => .inl hx, hkeeps⟩
    intro x hx
    rcases mem_of_insert htargets hx with hx | rfl
    · exact .inl hx
    · exact .inr hvalid
  · cases hc

end Plans

/-! ## Missions -/

section Missions

variable {P : PlanningPlatform} {added : PlanRow → Prop} {db db' : MissionDb}

theorem targetReadable_of_valid {target : TargetRevision} {plan : TestPlanRevision}
    (h : target.configuration.Valid P) {binding : MissionBinding}
    (hb : binding ∈ (dispatchDescriptor P.toPlatform target plan).binding) :
    TargetReadable P.toPlatform (dispatchDescriptor P.toPlatform target plan) binding := by
  cases hb
  unfold TargetReadable dispatchDescriptor missionTargetRef
  dsimp only
  cases hc : target.configuration with
  | web c =>
    rw [hc] at h
    obtain ⟨hblank, ⟨url, hurl, hscheme, huser, hpassword, _⟩, _⟩ := h
    have hhttp : Job.isHttp url = true := by simp [Job.isHttp, hscheme, huser, hpassword]
    have hparse : Job.parseTargetUrl P.toPlatform (.str c.startUrl) = .ok c.startUrl := by
      unfold Job.parseTargetUrl
      refine bind_eq_ok.mpr ⟨_, nonEmptyString_of_nonblank hblank, ?_⟩
      rw [hurl]
      exact if_pos hhttp
    dsimp only [TargetRef.toValue]
    unfold Job.parseTargetRef
    refine bind_eq_ok.mpr ⟨_, rfl, ?_⟩
    rw [JsValue.field_self]
    refine bind_eq_ok.mpr ⟨(), rfl, ?_⟩
    rw [JsValue.field_of_ne (by decide), JsValue.field_self, hparse]
    rfl
  | desktop app =>
    rw [hc] at h
    dsimp only [TargetRef.toValue]
    unfold Job.parseTargetRef
    refine bind_eq_ok.mpr ⟨_, rfl, ?_⟩
    rw [JsValue.field_self]
    refine bind_eq_ok.mpr ⟨(), rfl, ?_⟩
    rw [JsValue.field_of_ne (by decide), JsValue.field_self,
      show AppTarget.validateAppTarget app.toValue = .ok app from h]

/-- What intake saves: a mission that it compiled for a target from an approved plan. -/
structure SaveCompiledMissionInput.From (P : PlanningPlatform) (command : CreateMissionCommand)
    (target : TargetRevision) (plan : TestPlanRevision) (policy : ApprovedExecutionPolicy)
    (input : SaveCompiledMissionInput) : Prop where
  mission : input.mission.From P.toPlatform command target plan policy
  projectId : input.projectId = command.projectId
  dispatch : input.dispatch = dispatchDescriptor P.toPlatform target plan

theorem intakeMission_cases {now : Timestamp} {command : CreateMissionCommand}
    {target : Option TargetRevision} {plan : Option TestPlanRevision}
    {input : SaveCompiledMissionInput}
    (h : intakeMission P.toPlatform now command target plan = .ok input) :
    ∃ t p policy, target = some t ∧ plan = some p ∧ p.status = .approved ∧
      approvedPolicy t now maximumWallClockMs = .ok policy ∧ input.From P command t p policy := by
  unfold intakeMission at h
  split at h
  · next t p =>
    split at h
    · cases h
    next hstatus =>
    split at h
    · cases h
    obtain ⟨_, _, h⟩ := bind_eq_ok.mp h
    obtain ⟨policy, hp, h⟩ := bind_eq_ok.mp h
    obtain ⟨mission, hm, h⟩ := bind_eq_ok.mp h
    cases h
    exact ⟨t, p, policy, rfl, rfl, not_not.mp hstatus, hp,
      from_of_compile (mapError_eq_ok.mp hm), rfl, rfl⟩
  · cases h

theorem isBlank_of_approvedPolicy {target : TargetRevision} {now : Timestamp} {wallClock : ℕ}
    {policy : ApprovedExecutionPolicy} (hv : target.configuration.Valid P)
    (h : approvedPolicy target now wallClock = .ok policy) :
    ∀ origin ∈ policy.allowedOrigins, isBlank origin = false := by
  unfold approvedPolicy at h
  split at h
  · cases h
  · cases h
    dsimp only
    cases hc : target.configuration with
    | web c =>
      rw [hc] at hv
      exact hv.2.2.2
    | desktop app =>
      intro origin ho
      cases List.mem_singleton.mp ho
      decide

theorem mem_of_insertFresh {ρ κ : Type} [DecidableEq κ] {key : ρ → κ} {t : Table ρ key}
    {rows : List ρ} {x : ρ} (h : x ∈ (insertFresh t rows).rows) : x ∈ t.rows ∨ x ∈ rows := by
  induction rows generalizing t with
  | nil => exact .inl h
  | cons r rows ih =>
    rcases ih h with hx | hx
    · dsimp only at hx
      cases hi : t.insert r with
      | none =>
        rw [hi] at hx
        exact .inl hx
      | some u =>
        rw [hi] at hx
        rcases mem_of_insert hi hx with hx | rfl
        · exact .inl hx
        · exact .inr List.mem_cons_self
    · exact .inr (List.mem_cons_of_mem _ hx)

theorem sound_of_saveCompiledMission (hP : P.Lawful) (h : db.Sound P)
    {command : CreateMissionCommand} {target : TargetRevision} {plan : TestPlanRevision}
    {policy : ApprovedExecutionPolicy} {input : SaveCompiledMissionInput} {now : Timestamp}
    (hi : input.From P command target plan policy) (hv : target.configuration.Valid P)
    (hpolicy : approvedPolicy target now maximumWallClockMs = .ok policy)
    (hplan : ∀ t ∈ plan.testCases.toList, db.Approved t)
    (hc : saveCompiledMission input db = .ok db') : db'.Sound P ∧ MissionDb.Keeps added db db' := by
  unfold saveCompiledMission at hc
  split at hc
  · cases hc
  split at hc
  · cases hc
    exact ⟨h, MissionDb.keeps_of_eq rfl⟩
  next missions hmissions =>
  cases hc
  have hkeeps : MissionDb.Keeps added db { db with
      missions := missions
      missionRevisions := insertFresh db.missionRevisions
        [⟨input.mission.missionId, input.mission.missionRevision, input.mission⟩]
      schedulingHeads := insertFresh db.schedulingHeads
        [⟨input.mission.missionId, input.mission.missionRevision, 1, input.mission.compiledHash⟩]
      jobs := insertFresh db.jobs (input.mission.jobs.toList.map jobRow) } :=
    MissionDb.keeps_of_eq rfl
  refine ⟨h.extend hkeeps (fun _ hx => .inl hx) (fun _ hx => .inl hx) ?_ ?_ ?_
    fun _ hx => .inl hx, hkeeps⟩
  · intro x hx
    rcases mem_of_insert hmissions hx with hx | rfl
    · exact .inl hx
    · refine .inr ⟨?_, ?_, hi.mission.revision, ?_⟩
      · change isBlank input.mission.missionId = false
        rw [hi.mission.missionId]
        exact isBlank_shortHash hP _
      · change isBlank input.projectId = false
        rw [hi.projectId]
        exact hi.mission.project
      · change ∀ binding ∈ input.dispatch.binding,
          TargetReadable P.toPlatform input.dispatch binding
        rw [hi.dispatch]
        intro binding hb
        exact targetReadable_of_valid hv hb
  · intro x hx
    rcases mem_of_insertFresh hx with hx | hx
    · exact .inl hx
    · cases List.mem_singleton.mp hx
      refine .inr ⟨?_, fun job hj => (hi.mission.jobs job hj).budget⟩
      change PolicyReadable P.toPlatform input.mission.executionPolicy
      rw [hi.mission.carries]
      exact parse_policy_of_validate hi.mission.valid (isBlank_of_approvedPolicy hv hpolicy)
  · intro x hx
    rcases mem_of_insertFresh hx with hx | hx
    · exact .inl hx
    · obtain ⟨job, hj, rfl⟩ := List.mem_map.mp hx
      have hjob := hi.mission.jobs job hj
      exact .inr ⟨(hplan _ hjob.testCase).mono hkeeps, hjob.testCaseId, rfl, hjob.fits,
        hjob.capabilities⟩

theorem sound_of_createMission (hP : P.Lawful) (h : db.Sound P) {now : Timestamp}
    {command : CreateMissionCommand} {row : MissionRow}
    (hc : createMission P now command db = .ok (row, db')) :
    db'.Sound P ∧ MissionDb.Keeps added db db' := by
  unfold createMission at hc
  split at hc
  · obtain ⟨_, _, hc⟩ := bind_eq_ok.mp hc
    cases hc
    exact ⟨h, MissionDb.keeps_of_eq rfl⟩
  obtain ⟨input, hinput, hc⟩ := bind_eq_ok.mp hc
  obtain ⟨saved, hsaved, hc⟩ := bind_eq_ok.mp hc
  split at hc
  · cases hc
  obtain ⟨_, _, hc⟩ := bind_eq_ok.mp hc
  cases hc
  obtain ⟨target, plan, policy, ht, hp, hstatus, hpolicy, hfrom⟩ := intakeMission_cases hinput
  obtain ⟨targetRow, htarget, rfl⟩ := Option.map_eq_some_iff.mp ht
  unfold getPlan at hp
  obtain ⟨planRow, hplan, rfl⟩ := Option.map_eq_some_iff.mp hp
  exact sound_of_saveCompiledMission hP h hfrom (h.targets _ (Table.mem_of_get htarget)) hpolicy
    (fun t ht => ⟨planRow, Table.mem_of_get hplan, hstatus, ht⟩) hsaved

end Missions

/-! ## Scheduling -/

section Scheduling

variable {P : PlanningPlatform} {added : PlanRow → Prop} {db db' : MissionDb}

theorem sound_of_schedulingJob (h : db.Sound P) {compiled : CompiledMission}
    (hc : compiled.Sound P.toPlatform) {row : ExecutionJobRow} (hr : row ∈ db.jobs.rows)
    {j : SchedulingMissionJob} (hj : schedulingJob compiled row = .ok j) : j.Sound db := by
  unfold schedulingJob at hj
  split at hj
  · cases hj
  · next job hjob =>
    cases hj
    have hrow := h.jobs row hr
    exact ⟨hrow.approved, hrow.testCaseId, hrow.objective, hrow.fits, hrow.capabilities,
      hc.budgets job (List.mem_of_find?_eq_some hjob)⟩

theorem sound_of_loadMissionForScheduling (h : db.Sound P) {missionId : String}
    {mission : SchedulingMission}
    (hl : loadMissionForScheduling db missionId = .ok (some mission)) :
    mission.Sound P.toPlatform db := by
  unfold loadMissionForScheduling at hl
  split at hl
  · cases hl
  next row hrow =>
  split at hl
  · cases hl
  next revision hrevision =>
  obtain ⟨jobs, hjobs, hl⟩ := bind_eq_ok.mp hl
  cases hl
  obtain ⟨hmem, rfl⟩ := mem_of_currentMission hrow
  have hmission := h.missions row hmem
  have hcompiled := h.revisions revision (Table.mem_of_get hrevision)
  refine ⟨hmission.missionId, hmission.projectId, hmission.revision, hmission.target,
    hcompiled.policy, ?_⟩
  intro j hj
  obtain ⟨jobRow, hr, hsched⟩ := exists_of_mapM hjobs j hj
  have hrows : jobRow ∈ db.jobs.rows :=
    List.mem_of_mem_filter ((List.mem_insertionSort _).mp hr)
  exact sound_of_schedulingJob h hcompiled hrows hsched

theorem capabilities_of_requiredCapabilitiesForTarget {required : List String}
    (h : ∀ c ∈ required, c ≠ "") (target : TargetRef) :
    ∀ c ∈ requiredCapabilitiesForTarget required target, c ≠ "" := by
  cases target with
  | web url => exact h
  | desktop app =>
    have htokens : ∀ c ∈ desktopUiaV1RequiredCapabilities, c ≠ "" := by decide
    intro c hc
    rcases List.mem_append.mp hc with hc | hc
    · exact h c hc
    · exact htokens c (List.mem_of_mem_filter hc)

/-- A scheduled job of a loaded mission is checked, and its outbox row carries it. -/
theorem carries_of_scheduleJob (h : db.Sound P) {mission : SchedulingMission}
    (hm : mission.Sound P.toPlatform db) {binding : MissionBinding}
    (hb : mission.dispatch.binding = some binding) {j : SchedulingMissionJob}
    (hj : j ∈ mission.jobs) {ids : AllocatedIds} (hjob : isBlank ids.runnerJobId = false)
    (hrun : isBlank ids.runId = false) {command : StartMissionCommand} {at' : Timestamp} :
    (outboxRow mission command at' (scheduleJob mission binding j ids)).Carries P.toPlatform
      j.snapshot (scheduleJob mission binding j ids).job
      (scheduleJob mission binding j ids).requiredCapabilities := by
  have hsound := hm.jobs j hj
  obtain ⟨plan, hplan, _, ht⟩ := hsound.approved
  have hid := h.plans plan hplan j.snapshot ht
  have hchecked : Checked P.toPlatform (scheduleJob mission binding j ids).job := by
    refine ⟨hjob, hrun, hm.projectId, hm.target binding hb, hm.policy, hm.missionId,
      hm.revision, ?_, hid.referenced, ?_, hsound.budget, hsound.fits⟩
    · change isBlank j.testCaseId = false
      rw [hsound.testCaseId]
      exact hid.id
    · intro id hmem
      change id ∈ (NonEmptyList.map (fun claim => claim.claimId)
        j.snapshot.expectedClaims).toList at hmem
      obtain ⟨claim, hclaim, rfl⟩ := List.mem_map.mp
        (show id ∈ j.snapshot.expectedClaims.toList.map (·.claimId) from hmem)
      exact hid.claims claim hclaim
  exact ⟨rfl, hchecked, hsound.objective, rfl, rfl,
    capabilities_of_requiredCapabilitiesForTarget hsound.capabilities _⟩

theorem sound_of_scheduleMission (h : db.Sound P) {mission : SchedulingMission}
    (hm : mission.Sound P.toPlatform db) {binding : MissionBinding}
    (hb : mission.dispatch.binding = some binding) {ids : ℕ → AllocatedIds}
    (hids : ∀ i, isBlank (ids i).runnerJobId = false ∧ isBlank (ids i).runId = false)
    {command : StartMissionCommand} {scheduledAt : Timestamp} {result : ScheduledMission}
    (hc : scheduleMission P.toPlatform command mission binding scheduledAt ids db =
      .ok (result, db')) : db'.Sound P ∧ MissionDb.Keeps added db db' := by
  rcases scheduleMission_cases hc with ⟨_, _, _, _, rfl⟩ | ⟨_, _, _, _, hstarts⟩
  · exact ⟨h, MissionDb.keeps_of_eq rfl⟩
  have hrest := hstarts.rest
  have hkeeps : MissionDb.Keeps added db db' := MissionDb.keeps_of_eq (by rw [hrest])
  refine ⟨h.extend hkeeps ?_ ?_ ?_ ?_ ?_ ?_, hkeeps⟩
  · rw [hrest]
    exact fun _ hx => .inl hx
  · rw [hrest]
    exact fun _ hx => .inl hx
  · intro x hx
    rw [hstarts.missions] at hx
    obtain ⟨r, hr, rfl⟩ := List.mem_map.mp hx
    have hrow := h.missions r hr
    right
    split
    · exact ⟨hrow.missionId, hrow.projectId, hrow.revision, hrow.target⟩
    · exact hrow
  · rw [hrest]
    exact fun _ hx => .inl hx
  · rw [hrest]
    exact fun _ hx => .inl hx
  · intro x hx
    rw [hstarts.outbox] at hx
    rcases List.mem_append.mp hx with hx | hx
    · exact .inl hx
    right
    obtain ⟨s, hs, rfl⟩ := List.mem_map.mp hx
    obtain ⟨entry, he, rfl⟩ := List.mem_map.mp hs
    have hj := List.fst_mem_of_mem_zipIdx he
    exact ⟨entry.1.snapshot, _, _, (hm.jobs _ hj).approved.mono hkeeps,
      carries_of_scheduleJob h hm hb hj (hids entry.2).1 (hids entry.2).2⟩

end Scheduling

/-! ## Dispatches -/

section Dispatches

variable {P : PlanningPlatform} {added : PlanRow → Prop} {db db' : MissionDb}

theorem sound_of_marks (h : db.Sound P) {attemptId : String} {version : ℕ}
    {rewrite : OutboxRow → OutboxRow} {hr : ∀ r, (rewrite r).attemptId = r.attemptId}
    {status : AttemptStatus} (hm : Marks attemptId version rewrite hr status db db')
    (hjob : ∀ r, (rewrite r).acceptedJob = r.acceptedJob)
    (hneeds : ∀ r, (rewrite r).requiredCapabilities = r.requiredCapabilities) :
    db'.Sound P ∧ MissionDb.Keeps added db db' := by
  have hrest := hm.rest
  have hkeeps : MissionDb.Keeps added db db' := MissionDb.keeps_of_eq (by rw [hrest])
  refine ⟨h.extend hkeeps ?_ ?_ ?_ ?_ ?_ ?_, hkeeps⟩
  · rw [hrest]
    exact fun _ hx => .inl hx
  · rw [hrest]
    exact fun _ hx => .inl hx
  · rw [hrest]
    exact fun _ hx => .inl hx
  · rw [hrest]
    exact fun _ hx => .inl hx
  · rw [hrest]
    exact fun _ hx => .inl hx
  · intro x hx
    rw [hm.outbox] at hx
    obtain ⟨r, hmem, rfl⟩ := List.mem_map.mp hx
    split
    · right
      obtain ⟨t, job, capabilities, ha, hc⟩ := h.outbox r hmem
      exact ⟨t, job, capabilities, ha.mono hkeeps, (hjob r).trans hc.acceptedJob, hc.checked,
        hc.objective, hc.steps, (hneeds r).trans hc.requiredCapabilities, hc.capabilities⟩
    · exact .inl hmem

theorem sound_of_setMissionStatus (h : db.Sound P) (missionId : String) (revision : ℕ)
    (status : MissionStatus) : (setMissionStatus missionId revision status db).Sound P ∧
      MissionDb.Keeps added db (setMissionStatus missionId revision status db) := by
  have hkeeps : MissionDb.Keeps added db (setMissionStatus missionId revision status db) :=
    MissionDb.keeps_of_eq rfl
  refine ⟨h.extend hkeeps (fun _ hx => .inl hx) (fun _ hx => .inl hx) ?_ (fun _ hx => .inl hx)
    (fun _ hx => .inl hx) fun _ hx => .inl hx, hkeeps⟩
  intro x hx
  obtain ⟨r, hr, rfl⟩ := List.mem_map.mp hx
  have hrow := h.missions r hr
  right
  split
  · exact ⟨hrow.missionId, hrow.projectId, hrow.revision, hrow.target⟩
  · exact hrow

end Dispatches

/-! ## Runs -/

/-- The identities that a start allocates are not blank. -/
def MissionEvent.Allocated : MissionEvent → Prop
  | .schedule _ _ ids => ∀ i, isBlank (ids i).runnerJobId = false ∧ isBlank (ids i).runId = false
  | _ => True

/-- The plans that an event can add. -/
def MissionEvent.adds (db : MissionDb) : MissionEvent → PlanRow → Prop
  | .createPlan _, r => r.plan.status = .draft
  | .approvePlan command _, r =>
    ∃ plan ∈ latestPlan db command.planId, r.plan.testCases = plan.testCases
  | _, _ => False

namespace MissionWorld

variable {P : PlanningPlatform} {added : PlanRow → Prop} {w : MissionWorld}

/-- A new database that keeps the plans keeps the requests. -/
theorem Sound.withDb (h : w.Sound P) {db : MissionDb}
    (hdb : db.Sound P ∧ MissionDb.Keeps added w.db db) :
    ({ w with db := db } : MissionWorld).Sound P ∧ MissionDb.Keeps added w.db db :=
  ⟨⟨hdb.1, fun i phase hphase => (h.requests i phase hphase).mono hdb.2⟩, hdb.2⟩

theorem Sound.onDb (h : w.Sound P) {ε α : Type} {body : MissionDb → Except ε (α × MissionDb)}
    (hbody : ∀ a db', body w.db = .ok (a, db') →
      db'.Sound P ∧ MissionDb.Keeps added w.db db') :
    (w.onDb body).Sound P ∧ MissionDb.Keeps added w.db (w.onDb body).db :=
  h.withDb (transact_keeps hbody ⟨h.db, MissionDb.keeps_of_eq rfl⟩)

theorem Sound.setRequest (h : w.Sound P) (request : ℕ) {phase : Option StartPhase}
    (hphase : ∀ p ∈ phase, p.Sound P.toPlatform w.db) :
    (w.setRequest request phase).Sound P ∧
      MissionDb.Keeps added w.db (w.setRequest request phase).db := by
  refine ⟨⟨h.db, ?_⟩, MissionDb.keeps_of_eq rfl⟩
  intro i p hp
  unfold MissionWorld.setRequest at hp
  dsimp only at hp
  split at hp
  · exact hphase p hp
  · exact h.requests i p hp

theorem Sound.replay (h : w.Sound P) (request : ℕ) (command : StartMissionCommand) :
    (MissionWorld.replay P request command w).2.Sound P ∧
      MissionDb.Keeps added w.db (MissionWorld.replay P request command w).2.db := by
  unfold MissionWorld.replay
  split
  · exact h.setRequest request (by simp)
  · exact h.setRequest request (by simp)
  · refine h.setRequest request ?_
    rintro p ⟨⟩
    trivial

theorem Sound.load (h : w.Sound P) (request : ℕ) :
    (MissionWorld.load request w).2.Sound P ∧
      MissionDb.Keeps added w.db (MissionWorld.load request w).2.db := by
  unfold MissionWorld.load
  split
  · split
    · exact h.setRequest request (by simp)
    · exact h.setRequest request (by simp)
    · next mission hmission =>
      split
      · exact h.setRequest request (by simp)
      · next binding hbinding =>
        refine h.setRequest request ?_
        rintro p ⟨⟩
        exact ⟨sound_of_loadMissionForScheduling h.db hmission, hbinding⟩
  · exact ⟨h, MissionDb.keeps_of_eq rfl⟩

theorem Sound.schedule (h : w.Sound P) {request : ℕ} {scheduledAt : Timestamp}
    {ids : ℕ → AllocatedIds}
    (hids : ∀ i, isBlank (ids i).runnerJobId = false ∧ isBlank (ids i).runId = false) :
    (MissionWorld.schedule P request scheduledAt ids w).2.Sound P ∧
      MissionDb.Keeps added w.db (MissionWorld.schedule P request scheduledAt ids w).2.db := by
  unfold MissionWorld.schedule
  split
  · next command mission binding hphase =>
    obtain ⟨hm, hb⟩ := h.requests request _ hphase
    have hcleared : (w.setRequest request none).Sound P ∧
        MissionDb.Keeps added w.db (w.setRequest request none).db :=
      h.setRequest request (by simp)
    refine hcleared.1.withDb ?_
    exact transact_keeps (fun _ _ hc => sound_of_scheduleMission h.db hm hb hids hc)
      ⟨h.db, MissionDb.keeps_of_eq rfl⟩
  · exact ⟨h, MissionDb.keeps_of_eq rfl⟩

/-- An event keeps soundness and adds only its own plans. -/
theorem Sound.step (hP : P.Lawful) (h : w.Sound P) {e : MissionEvent} (he : e.Allocated) :
    (w.step P e).Sound P ∧ MissionDb.Keeps (e.adds w.db) w.db (w.step P e).db := by
  cases e with
  | savePrdDocument document =>
    have hkeeps : MissionDb.Keeps (fun _ => False) w.db { w.db with
        documents := (w.db.documents.insert document).getD w.db.documents } :=
      MissionDb.keeps_of_eq rfl
    refine h.withDb ⟨h.db.extend hkeeps ?_ ?_ ?_ ?_ ?_ ?_, hkeeps⟩ <;>
      exact fun _ hx => .inl hx
  | createPlan command => exact h.onDb fun _ _ hc => sound_of_createPlan hP h.db hc
  | approvePlan command now => exact h.onDb fun _ _ hc => sound_of_approvePlan h.db hc
  | createTarget input key => exact h.onDb fun _ _ hc => sound_of_createTarget hP h.db hc
  | createMission now command => exact h.onDb fun _ _ hc => sound_of_createMission hP h.db hc
  | replay request command => exact h.replay request command
  | load request => exact h.load request
  | schedule request scheduledAt ids => exact h.schedule he
  | markAccepted attemptId receipt version =>
    refine h.onDb fun _ _ hc => ?_
    rcases markDispatchAccepted_cases hc with ⟨_, _, _, rfl⟩ | ⟨_, _, _, _, _, _, hm⟩
    · exact ⟨h.db, MissionDb.keeps_of_eq rfl⟩
    · exact sound_of_marks h.db hm (fun _ => rfl) fun _ => rfl
  | markBlocked attemptId version =>
    refine h.onDb fun _ _ hc => ?_
    rcases markDispatchBlocked_cases hc with ⟨_, _, _, rfl⟩ | ⟨_, _, _, _, hm⟩
    · exact ⟨h.db, MissionDb.keeps_of_eq rfl⟩
    · exact sound_of_marks h.db hm (fun _ => rfl) fun _ => rfl
  | setMissionStatus missionId revision status =>
    exact h.withDb (sound_of_setMissionStatus h.db missionId revision status)
  | restart => exact ⟨⟨h.db, fun _ _ hp => by cases hp⟩, MissionDb.keeps_of_eq rfl⟩

theorem sound_initial : initial.Sound P := by
  have hdb : MissionDb.empty.Sound P := by
    constructor <;> exact fun _ hr => absurd hr List.not_mem_nil
  exact ⟨hdb, fun _ _ hp => by cases hp⟩

/-- Every database of a run is sound. -/
theorem sound_after (hP : P.Lawful) {events : List MissionEvent}
    (he : ∀ e ∈ events, e.Allocated) : (after P events).Sound P := by
  unfold after
  refine List.foldlRecOn (motive := fun w : MissionWorld => w.Sound P) events _ sound_initial ?_
  intro w hw e hmem
  exact (hw.step hP (he e hmem)).1

end MissionWorld

/-! ## Reading the outbox -/

section Reading

variable {P : Platform} {row : OutboxRow} {t : TestCase} {job : AcceptedMissionExecutionJob}
  {capabilities : List String}

def textItem : JsValue → Option String
  | .str s => some s
  | _ => none

theorem readCapabilities_of_nonempty (h : ∀ c ∈ capabilities, c ≠ "") :
    readCapabilities (AppTarget.strings capabilities) = .ok capabilities := by
  have hall : (capabilities.map JsValue.str).all isNonEmptyText = true := by
    rw [List.all_map, List.all_eq_true]
    intro c hc
    exact decide_eq_true (h c hc)
  have hread : (capabilities.map JsValue.str).filterMap textItem = capabilities := by
    rw [List.filterMap_map]
    exact List.filterMap_some
  unfold readCapabilities AppTarget.strings
  simp only [hall, if_true]
  exact congrArg Except.ok hread

theorem OutboxRow.Carries.named_iff (h : row.Carries P t job capabilities) :
    job.Named ↔ t.Named := by
  unfold AcceptedMissionExecutionJob.Named TestCase.Named
  rw [h.objective, h.steps]

/-- The job of a row is accepted exactly when the open texts of its test case are not blank. -/
theorem OutboxRow.Carries.parse_iff (h : row.Carries P t job capabilities) :
    (∃ accepted, parseExecutionJob P row.acceptedJob = .ok accepted) ↔ t.Named := by
  rw [h.acceptedJob, Mission.parse_iff h.checked]
  exact h.named_iff

theorem OutboxRow.Carries.dispatchBase (h : row.Carries P t job capabilities) (ht : t.Named) :
    ∃ d, Mission.dispatchBase P row = .ok d := by
  have hread := readJob_of_named h.checked (h.named_iff.mpr ht)
  unfold Mission.dispatchBase
  rw [h.requiredCapabilities, readCapabilities_of_nonempty h.capabilities, h.acceptedJob, hread]
  exact ⟨_, rfl⟩

theorem mapM_of_forall {ε α β : Type} {f : α → Except ε β} {xs : List α}
    (h : ∀ x ∈ xs, ∃ y, f x = .ok y) : ∃ ys, xs.mapM f = .ok ys := by
  induction xs with
  | nil => exact ⟨[], rfl⟩
  | cons x xs ih =>
    obtain ⟨y, hy⟩ := h x List.mem_cons_self
    obtain ⟨ys, hys⟩ := ih fun z hz => h z (List.mem_cons_of_mem _ hz)
    rw [List.mapM_cons, hy, hys]
    exact ⟨_, rfl⟩

end Reading

section Run

variable {P : PlanningPlatform}

/-- A plan is approved only when the open texts of its test cases are not blank. -/
def ApprovesNamed (w : MissionWorld) : MissionEvent → Prop
  | .approvePlan command _ => ∀ plan ∈ latestPlan w.db command.planId,
      ∀ t ∈ plan.testCases.toList, t.Named
  | _ => True

instance decidableApprovesNamed (w : MissionWorld) : (e : MissionEvent) →
    Decidable (ApprovesNamed w e)
  | .approvePlan command _ => inferInstanceAs (Decidable (∀ plan ∈
      latestPlan w.db command.planId, ∀ t ∈ plan.testCases.toList, t.Named))
  | .savePrdDocument .. | .createPlan .. | .createTarget .. | .createMission .. | .replay ..
  | .load .. | .schedule .. | .markAccepted .. | .markBlocked .. | .setMissionStatus ..
  | .restart => isTrue trivial

theorem named_of_adds {w : MissionWorld} {e : MissionEvent} (he : ApprovesNamed w e)
    {r : PlanRow} (hr : e.adds w.db r) (hs : r.plan.status = .approved) :
    ∀ t ∈ r.plan.testCases.toList, t.Named := by
  cases e with
  | createPlan command =>
    change r.plan.status = .draft at hr
    rw [hs] at hr
    cases hr
  | approvePlan command now =>
    obtain ⟨plan, hp, hcases⟩ := hr
    rw [hcases]
    exact he plan hp
  | _ => exact False.elim hr

theorem named_of_approved_from (hP : P.Lawful) {events : List MissionEvent} {w : MissionWorld}
    (hw : w.Sound P) (he : ∀ e ∈ events, e.Allocated)
    (hn : Meets (MissionWorld.step P) ApprovesNamed w events)
    (h : ∀ t, w.db.Approved t → t.Named) :
    ∀ t, (events.foldl (MissionWorld.step P) w).db.Approved t → t.Named := by
  induction events generalizing w with
  | nil => exact h
  | cons e events ih =>
    obtain ⟨hsound, hkeeps⟩ := hw.step hP (he e List.mem_cons_self)
    refine ih hsound (fun x hx => he x (List.mem_cons_of_mem _ hx)) hn.2 ?_
    rintro t ⟨r, hr, hs, ht⟩
    rcases hkeeps.new r hr with hr | hr
    · exact h t ⟨r, hr, hs, ht⟩
    · exact named_of_adds hn.1 hr hs t ht

/-- In a run that approves named plans only, every approved test case is named. -/
theorem named_of_approved (hP : P.Lawful) {events : List MissionEvent}
    (he : ∀ e ∈ events, e.Allocated)
    (hn : Meets (MissionWorld.step P) ApprovesNamed .initial events) :
    ∀ t, (MissionWorld.after P events).db.Approved t → t.Named := by
  refine named_of_approved_from hP MissionWorld.sound_initial he hn ?_
  rintro t ⟨r, hr, _⟩
  cases hr

/-- Every row of the outbox carries the objective and the steps of a test case of an approved
plan, and its job is accepted exactly when the open texts of the test case are not blank. In a
run that approves only plans whose open texts are not blank, every job of the outbox is
accepted and reading the pending dispatches never fails. -/
theorem outbox_jobs_accepted_iff_named (hP : P.Lawful) (events : List MissionEvent)
    (he : ∀ e ∈ events, e.Allocated) :
    (∀ row ∈ (MissionWorld.after P events).db.outbox.rows,
      ∃ (t : TestCase) (job : AcceptedMissionExecutionJob),
      (MissionWorld.after P events).db.Approved t ∧ row.acceptedJob = job.toValue ∧
      job.objective = t.objective ∧ job.plan.steps = t.steps ∧
      ((∃ accepted, parseExecutionJob P.toPlatform row.acceptedJob = .ok accepted) ↔ t.Named)) ∧
    (Meets (MissionWorld.step P) ApprovesNamed .initial events →
      (∀ row ∈ (MissionWorld.after P events).db.outbox.rows,
        ∃ accepted, parseExecutionJob P.toPlatform row.acceptedJob = .ok accepted) ∧
      ∀ limit, 0 < limit → limit ≤ 256 → ∃ dispatches,
        pendingDispatches P.toPlatform limit (MissionWorld.after P events).db =
          .ok dispatches) := by
  have hsound := MissionWorld.sound_after hP he
  refine ⟨?_, fun hn => ⟨?_, ?_⟩⟩
  · intro row hrow
    obtain ⟨t, job, capabilities, ha, hc⟩ := hsound.db.outbox row hrow
    exact ⟨t, job, ha, hc.acceptedJob, hc.objective, hc.steps, hc.parse_iff⟩
  · intro row hrow
    obtain ⟨t, job, capabilities, ha, hc⟩ := hsound.db.outbox row hrow
    exact hc.parse_iff.mpr (named_of_approved hP he hn t ha)
  · intro limit hpos hle
    unfold pendingDispatches
    rw [if_neg (by omega)]
    refine mapM_of_forall fun row hrow => ?_
    have hmem := (List.mem_insertionSort _).mp (List.mem_of_mem_take hrow)
    obtain ⟨t, job, capabilities, ha, hc⟩ :=
      hsound.db.outbox row (List.mem_of_mem_filter hmem)
    exact hc.dispatchBase (named_of_approved hP he hn t ha)

theorem samplePlanning_lawful : samplePlanning.Lawful := by
  have hdigit : ∀ d < 16, (Nat.digitChar d).isAlphanum = true := by decide
  constructor
  · intro bytes
    change (hexText 64 _).toList.length = 64
    simp [hexText]
  · intro bytes c hc
    change c ∈ (hexText 64 _).toList at hc
    rw [hexText, String.toList_ofList] at hc
    obtain ⟨i, _, rfl⟩ := List.mem_map.mp hc
    exact hdigit _ (Nat.mod_lt _ (by decide))
  · intro text url h
    change (if text = sampleUrl ∨ text = sampleOrigin then _ else _) = _ at h
    split at h
    · next ht =>
      rcases ht with rfl | rfl
      · exact h
      · exact h
    · cases h
  · intro text url h
    change (if text = sampleUrl ∨ text = sampleOrigin then _ else _) = _ at h
    split at h
    · next ht =>
      rcases ht with rfl | rfl
      · decide
      · decide
    · cases h

theorem sampleEvents_allocated (objective : String) (steps : List JsValue) :
    ∀ e ∈ sampleEvents objective steps, e.Allocated := by
  have hjob : ∀ (text : String) (i : ℕ), 'j' ∈ text.toList ∨ 'r' ∈ text.toList →
      isBlank (text ++ toString i) = false := by
    intro text i htext
    rcases htext with h | h
    · exact isBlank_eq_false_iff.mpr ⟨'j', by simp [h], by decide⟩
    · exact isBlank_eq_false_iff.mpr ⟨'r', by simp [h], by decide⟩
  intro e he
  simp only [sampleEvents, List.mem_cons, List.not_mem_nil, or_false] at he
  rcases he with rfl | rfl | rfl | rfl | rfl | rfl | rfl | rfl
  · trivial
  · trivial
  · trivial
  · trivial
  · trivial
  · trivial
  · trivial
  · exact fun i => ⟨hjob "job-" i (by decide), hjob "run-" i (by decide)⟩

theorem outbox_jobs_accepted_iff_named_sample :
    Meets (MissionWorld.step samplePlanning) ApprovesNamed .initial
      (sampleEvents "Open the page" sampleSteps) ∧
    ∃ dispatches, pendingDispatches samplePlanning.toPlatform 32
      (MissionWorld.after samplePlanning (sampleEvents "Open the page" sampleSteps)).db =
        .ok dispatches := by
  have hn : Meets (MissionWorld.step samplePlanning) ApprovesNamed .initial
      (sampleEvents "Open the page" sampleSteps) := by decide
  have h := outbox_jobs_accepted_iff_named samplePlanning_lawful
    (sampleEvents "Open the page" sampleSteps) (sampleEvents_allocated _ _)
  exact ⟨hn, (h.2 hn).2 32 (by decide) (by decide)⟩

/-- A plan whose test case has no objective passes every check up to the outbox, and its row
makes reading the pending dispatches fail. -/
theorem blank_objective_blocks_the_outbox :
    (MissionWorld.after samplePlanning (sampleEvents "" sampleSteps)).db.outbox.rows.map
      (fun row => (row.attemptId,
        (parseExecutionJob samplePlanning.toPlatform row.acceptedJob).toOption)) =
      [("attempt-0", none)] ∧
    pendingDispatches samplePlanning.toPlatform 32
      (MissionWorld.after samplePlanning (sampleEvents "" sampleSteps)).db =
      .error (.error "ExecutionPolicySnapshotError") := by
  decide +kernel

end Run

end Qualigence.Mission
