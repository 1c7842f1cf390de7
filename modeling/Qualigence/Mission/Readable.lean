import Qualigence.Mission.World

/-! # Jobs that the outbox can be read with

The parser of jobs wants every text to have more than spaces. Of the texts of a scheduled
job, the checks of planning leave the objective, the paths and the names of targets open:
the job is accepted exactly when none of them is blank.
-/

namespace Qualigence.Mission

open Foundation Protocol

def SemanticTarget.Named (t : SemanticTarget) : Prop :=
  isBlank t.purpose = false ∧ (∀ role ∈ t.role, isBlank role = false) ∧
    ∀ name ∈ t.name, isBlank name = false

def IntentStep.Named : IntentStep → Prop
  | .navigate path => isBlank path = false
  | .click target | .input target _ => target.Named
  | .verify _ => True

/-- The texts of a test case that planning does not check are not blank. -/
def TestCase.Named (t : TestCase) : Prop :=
  isBlank t.objective = false ∧ ∀ step ∈ t.steps.toList, step.Named

instance (t : SemanticTarget) : Decidable t.Named := inferInstanceAs (Decidable (_ ∧ _ ∧ _))

instance : (step : IntentStep) → Decidable step.Named
  | .navigate path => inferInstanceAs (Decidable (isBlank path = false))
  | .click target | .input target _ => inferInstanceAs (Decidable target.Named)
  | .verify _ => isTrue trivial

instance (t : TestCase) : Decidable t.Named := inferInstanceAs (Decidable (_ ∧ _))

/-- The texts of a step that planning makes sure of. -/
def IntentStep.Referenced : IntentStep → Prop
  | .input _ valueRef => isBlank valueRef = false
  | .verify claimIds => ∀ id ∈ claimIds.toList, isBlank id = false
  | _ => True

/-! ## Steps -/

def SemanticTarget.toPlanTarget (t : SemanticTarget) : ExecutionPlanTarget :=
  ⟨t.role, t.name, t.purpose⟩

/-- The step that the Runner reads; it has no index. -/
def IntentStep.toPlanStep : IntentStep → ExecutionPlanStep
  | .navigate path => .navigate none path
  | .click target => .click none target.toPlanTarget
  | .input target valueRef => .input none target.toPlanTarget valueRef
  | .verify claimIds => .verify none claimIds

theorem toPlanStep_toValue (step : IntentStep) : step.toPlanStep.toValue = step.toValue := by
  cases step <;> rfl

theorem nonEmptyString_of_nonblank {s : String} (h : isBlank s = false) :
    Job.nonEmptyString (.str s) = .ok s := by
  simp [Job.nonEmptyString, h]

theorem nonblank_of_nonEmptyString {s t : String} (h : Job.nonEmptyString (.str s) = .ok t) :
    isBlank s = false := by
  unfold Job.nonEmptyString Job.malformed at h
  dsimp only at h
  split at h
  · cases h
  · next hb => simpa using hb

theorem stringTuple_of_nonblank {xs : NonEmptyList String}
    (h : ∀ x ∈ xs.toList, isBlank x = false) :
    Job.stringTuple (AppTarget.strings xs.toList) = .ok xs := by
  have hm : ∀ {ys : List String}, (∀ y ∈ ys, isBlank y = false) →
      (ys.map JsValue.str).mapM Job.nonEmptyString = .ok ys := by
    intro ys hys
    induction ys with
    | nil => rfl
    | cons y ys ih =>
      rw [List.map_cons, List.mapM_cons, nonEmptyString_of_nonblank (hys y List.mem_cons_self),
        ih fun z hz => hys z (List.mem_cons_of_mem _ hz)]
      rfl
  unfold Job.stringTuple
  refine bind_eq_ok.mpr ⟨⟨.str xs.first, xs.rest.map .str⟩, rfl, ?_⟩
  exact Job.mapTuple_eq_ok.mpr (hm h)

section Targets

variable {t : SemanticTarget}

theorem optionalText_of_nonblank {o : Option String} (h : ∀ s ∈ o, isBlank s = false) :
    Job.optionalOf Job.nonEmptyString ((o.map JsValue.str).getD .undefined) = .ok o := by
  cases o with
  | none => rfl
  | some s => exact Job.optionalOf_eq_some nofun (nonEmptyString_of_nonblank (h s rfl))

theorem nonblank_of_optionalText {o o' : Option String}
    (h : Job.optionalOf Job.nonEmptyString ((o.map JsValue.str).getD .undefined) = .ok o') :
    ∀ s ∈ o, isBlank s = false := by
  rintro s rfl
  obtain ⟨s', hs, _⟩ := bind_eq_ok.mp h
  exact nonblank_of_nonEmptyString hs

theorem parse_target_of_named (h : t.Named) :
    Job.parseExecutionPlanTarget t.toValue = .ok t.toPlanTarget := by
  obtain ⟨hp, hr, hn⟩ := h
  unfold Job.parseExecutionPlanTarget SemanticTarget.toValue
  refine bind_eq_ok.mpr ⟨_, rfl, bind_eq_ok.mpr ⟨(), ?_, ?_⟩⟩
  · cases t.role <;> cases t.name <;> rfl
  simp only [List.cons_append, JsValue.field_self, JsValue.field_of_ne,
    JsValue.field_optional_self, JsValue.field_optional_of_ne, JsValue.field_optional_only,
    JsValue.field_optional_only_of_ne, ne_eq, String.reduceEq, not_false_eq_true,
    optionalText_of_nonblank hr, optionalText_of_nonblank hn, nonEmptyString_of_nonblank hp,
    bind, Except.bind]
  rfl

theorem named_of_parse_target {t' : ExecutionPlanTarget}
    (h : Job.parseExecutionPlanTarget t.toValue = .ok t') : t.Named := by
  unfold Job.parseExecutionPlanTarget SemanticTarget.toValue at h
  obtain ⟨fields, hf, h⟩ := bind_eq_ok.mp h
  cases hf
  obtain ⟨_, _, h⟩ := bind_eq_ok.mp h
  obtain ⟨role, hr, h⟩ := bind_eq_ok.mp h
  obtain ⟨name, hn, h⟩ := bind_eq_ok.mp h
  obtain ⟨purpose, hp, h⟩ := bind_eq_ok.mp h
  simp only [List.cons_append, JsValue.field_self, JsValue.field_of_ne,
    JsValue.field_optional_self, JsValue.field_optional_of_ne, JsValue.field_optional_only,
    JsValue.field_optional_only_of_ne, ne_eq, String.reduceEq, not_false_eq_true] at hr hn hp
  exact ⟨nonblank_of_nonEmptyString hp, nonblank_of_optionalText hr, nonblank_of_optionalText hn⟩

end Targets

section Steps

variable {step : IntentStep}

theorem parse_step_of_named (hr : step.Referenced) (hn : step.Named) :
    Job.parseExecutionPlanStep step.toValue = .ok step.toPlanStep := by
  unfold Job.parseExecutionPlanStep
  refine bind_eq_ok.mpr ?_
  cases step with
  | navigate path =>
    refine ⟨_, rfl, bind_eq_ok.mpr ⟨none, rfl, ?_⟩⟩
    rw [JsValue.field_self]
    refine bind_eq_ok.mpr ⟨(), rfl, ?_⟩
    rw [JsValue.field_of_ne (by decide), JsValue.field_self, nonEmptyString_of_nonblank hn]
    rfl
  | click target =>
    refine ⟨_, rfl, bind_eq_ok.mpr ⟨none, rfl, ?_⟩⟩
    rw [JsValue.field_self]
    refine bind_eq_ok.mpr ⟨(), rfl, ?_⟩
    rw [JsValue.field_of_ne (by decide), JsValue.field_self, parse_target_of_named hn]
    rfl
  | input target valueRef =>
    refine ⟨_, rfl, bind_eq_ok.mpr ⟨none, rfl, ?_⟩⟩
    rw [JsValue.field_self]
    refine bind_eq_ok.mpr ⟨(), rfl, ?_⟩
    simp only [JsValue.field_of_ne, JsValue.field_self, ne_eq, String.reduceEq,
      not_false_eq_true, parse_target_of_named hn, nonEmptyString_of_nonblank hr]
    rfl
  | verify claimIds =>
    refine ⟨_, rfl, bind_eq_ok.mpr ⟨none, rfl, ?_⟩⟩
    rw [JsValue.field_self]
    refine bind_eq_ok.mpr ⟨(), rfl, ?_⟩
    rw [JsValue.field_of_ne (by decide), JsValue.field_self, stringTuple_of_nonblank hr]
    rfl

theorem named_of_parse_step {s : ExecutionPlanStep}
    (h : Job.parseExecutionPlanStep step.toValue = .ok s) : step.Named := by
  unfold Job.parseExecutionPlanStep at h
  obtain ⟨fields, hf, h⟩ := bind_eq_ok.mp h
  cases step with
  | navigate path =>
    cases hf
    obtain ⟨index, _, h⟩ := bind_eq_ok.mp h
    rw [JsValue.field_self] at h
    obtain ⟨_, _, h⟩ := bind_eq_ok.mp h
    obtain ⟨path', hp, _⟩ := bind_eq_ok.mp h
    rw [JsValue.field_of_ne (by decide), JsValue.field_self] at hp
    exact nonblank_of_nonEmptyString hp
  | click target =>
    cases hf
    obtain ⟨index, _, h⟩ := bind_eq_ok.mp h
    rw [JsValue.field_self] at h
    obtain ⟨_, _, h⟩ := bind_eq_ok.mp h
    obtain ⟨target', ht, _⟩ := bind_eq_ok.mp h
    rw [JsValue.field_of_ne (by decide), JsValue.field_self] at ht
    exact named_of_parse_target ht
  | input target valueRef =>
    cases hf
    obtain ⟨index, _, h⟩ := bind_eq_ok.mp h
    rw [JsValue.field_self] at h
    obtain ⟨_, _, h⟩ := bind_eq_ok.mp h
    obtain ⟨target', ht, _⟩ := bind_eq_ok.mp h
    rw [JsValue.field_of_ne (by decide), JsValue.field_self] at ht
    exact named_of_parse_target ht
  | verify claimIds => trivial

end Steps

theorem parse_steps_of_named {steps : List IntentStep} (hr : ∀ step ∈ steps, step.Referenced)
    (hn : ∀ step ∈ steps, step.Named) :
    ((steps.map IntentStep.toPlanStep).map (·.toValue)).mapM Job.parseExecutionPlanStep =
      .ok (steps.map IntentStep.toPlanStep) := by
  induction steps with
  | nil => rfl
  | cons step steps ih =>
    rw [List.map_cons, List.map_cons, List.mapM_cons, toPlanStep_toValue,
      parse_step_of_named (hr step List.mem_cons_self) (hn step List.mem_cons_self),
      ih (fun s hs => hr s (List.mem_cons_of_mem _ hs)) fun s hs =>
        hn s (List.mem_cons_of_mem _ hs)]
    rfl

theorem named_of_parse_steps {steps : List IntentStep} {parsed : List ExecutionPlanStep}
    (h : (steps.map (·.toValue)).mapM Job.parseExecutionPlanStep = .ok parsed) :
    ∀ step ∈ steps, step.Named := by
  induction steps generalizing parsed with
  | nil => nofun
  | cons step steps ih =>
    rw [List.map_cons, List.mapM_cons] at h
    obtain ⟨s, hs, h⟩ := bind_eq_ok.mp h
    obtain ⟨rest, hr, _⟩ := bind_eq_ok.mp h
    intro x hx
    rcases List.mem_cons.mp hx with rfl | hx
    · exact named_of_parse_step hs
    · exact ih hr x hx

/-! ## Jobs -/

def AcceptedMissionPlan.toSnapshot (plan : AcceptedMissionPlan) : ExecutionJobPlanSnapshot where
  missionId := plan.missionId
  missionRevision := plan.missionRevision
  testCaseId := plan.testCaseId
  steps := NonEmptyList.map IntentStep.toPlanStep plan.steps
  expectedClaimIds := plan.expectedClaimIds
  budget := plan.budget

theorem toSnapshot_steps (plan : AcceptedMissionPlan) :
    plan.toSnapshot.steps.toList = plan.steps.toList.map IntentStep.toPlanStep := rfl

/-- The job that the Runner reads. -/
def AcceptedMissionExecutionJob.toAccepted (job : AcceptedMissionExecutionJob) :
    AcceptedExecutionJob where
  jobId := job.jobId
  runId := job.runId
  projectId := job.projectId
  target := job.target
  objective := job.objective
  policy := job.policy
  plan := some job.plan.toSnapshot

theorem toAccepted_toValue (job : AcceptedMissionExecutionJob) :
    job.toAccepted.toValue = job.toValue := by
  have hsteps : (job.plan.toSnapshot.steps.toList.map (·.toValue)) =
      job.plan.steps.toList.map (·.toValue) := by
    rw [toSnapshot_steps, List.map_map]
    exact List.map_congr_left fun step _ => toPlanStep_toValue step
  have hplan : job.plan.toSnapshot.toValue = job.plan.toValue := by
    unfold ExecutionJobPlanSnapshot.toValue
    rw [hsteps]
    rfl
  unfold AcceptedExecutionJob.toValue AcceptedMissionExecutionJob.toValue
  rw [← hplan]
  rfl

def AcceptedMissionExecutionJob.Named (job : AcceptedMissionExecutionJob) : Prop :=
  isBlank job.objective = false ∧ ∀ step ∈ job.plan.steps.toList, step.Named

def missionBudget : ExecutionPlanBudget := ⟨100, maximumWallClockMs, 100000⟩

/-- What planning, intake and scheduling make sure of in a job. -/
structure Checked (P : Platform) (job : AcceptedMissionExecutionJob) : Prop where
  jobId : isBlank job.jobId = false
  runId : isBlank job.runId = false
  projectId : isBlank job.projectId = false
  target : Job.parseTargetRef P job.target.toValue = .ok job.target
  policy : Job.parseExecutionPolicySnapshot P job.policy.toValue = .ok job.policy
  missionId : isBlank job.plan.missionId = false
  missionRevision : job.plan.missionRevision = 1
  testCaseId : isBlank job.plan.testCaseId = false
  referenced : ∀ step ∈ job.plan.steps.toList, step.Referenced
  claims : ∀ id ∈ job.plan.expectedClaimIds.toList, isBlank id = false
  budget : job.plan.budget = missionBudget
  fits : job.plan.steps.toList.length ≤ 100

section Jobs

variable {P : Platform} {job : AcceptedMissionExecutionJob}

theorem toPlanStep_stepIndex (step : IntentStep) : step.toPlanStep.stepIndex = none := by
  cases step <;> rfl

theorem toPlanStep_supported (step : IntentStep) : isUnsupported step.toPlanStep = false := by
  cases step <;> rfl

theorem validate_legacy (steps : List IntentStep) :
    Job.validateStepIndices (steps.map IntentStep.toPlanStep) = .ok () := by
  have hall : ((steps.map IntentStep.toPlanStep).all fun step => step.stepIndex.isNone) =
      true := by
    rw [List.all_map, List.all_eq_true]
    intro step _
    simp [toPlanStep_stepIndex]
  unfold Job.validateStepIndices
  rw [if_pos hall]

theorem planAccepted_of_named (h : Checked P job) (hn : job.Named) :
    Job.PlanAccepted job.plan.toSnapshot := by
  have hb : job.plan.toSnapshot.budget = missionBudget := h.budget
  have hr : job.plan.toSnapshot.missionRevision = 1 := h.missionRevision
  have hlength : job.plan.toSnapshot.steps.toList.length = job.plan.steps.toList.length := by
    rw [toSnapshot_steps, List.length_map]
  constructor
  · exact nonEmptyString_of_nonblank h.missionId
  · rw [hr]
    rfl
  · exact nonEmptyString_of_nonblank h.testCaseId
  · exact parse_steps_of_named h.referenced hn.2
  · exact validate_legacy job.plan.steps.toList
  · exact stringTuple_of_nonblank h.claims
  · rw [hb]
    rfl
  · rw [hb, hlength]
    exact h.fits
  · rw [hb]
    rfl
  · rw [hb]
    rfl

theorem jobAccepted_of_named (h : Checked P job) (hn : job.Named) :
    JobAccepted P job.toAccepted := by
  constructor
  · exact nonEmptyString_of_nonblank h.jobId
  · exact nonEmptyString_of_nonblank h.runId
  · exact nonEmptyString_of_nonblank h.projectId
  · exact h.target
  · exact nonEmptyString_of_nonblank hn.1
  · exact h.policy
  · rintro p ⟨⟩
    exact planAccepted_of_named h hn
  · rintro p ⟨⟩ step hs
    rw [toSnapshot_steps] at hs
    obtain ⟨s, _, rfl⟩ := List.mem_map.mp hs
    simp [Job.isForbidden, toPlanStep_stepIndex]

theorem readJob_of_named (h : Checked P job) (hn : job.Named) :
    readJob P job.toValue = .ok job.toAccepted := by
  have hparse := parse_of_jobAccepted (jobAccepted_of_named h hn)
  rw [toAccepted_toValue] at hparse
  have hsupported : (job.plan.toSnapshot.steps.toList.any isUnsupported) = false := by
    refine List.any_eq_false.mpr fun s hs => ?_
    rw [toSnapshot_steps] at hs
    obtain ⟨step, _, rfl⟩ := List.mem_map.mp hs
    simp [toPlanStep_supported]
  unfold readJob
  rw [hparse]
  change (if job.plan.toSnapshot.steps.toList.any isUnsupported = true then _ else _) = _
  rw [hsupported]
  rfl

theorem named_of_parse {r : AcceptedExecutionJob}
    (hparse : parseExecutionJob P job.toValue = .ok r) : job.Named := by
  unfold parseExecutionJob AcceptedMissionExecutionJob.toValue at hparse
  obtain ⟨raw, hraw, hparse⟩ := bind_eq_ok.mp hparse
  cases hraw
  obtain ⟨jobId, _, hparse⟩ := bind_eq_ok.mp hparse
  obtain ⟨runId, _, hparse⟩ := bind_eq_ok.mp hparse
  obtain ⟨projectId, _, hparse⟩ := bind_eq_ok.mp hparse
  obtain ⟨target, _, hparse⟩ := bind_eq_ok.mp hparse
  obtain ⟨objective, ho, hparse⟩ := bind_eq_ok.mp hparse
  obtain ⟨policy, _, hparse⟩ := bind_eq_ok.mp hparse
  obtain ⟨plan, hp, _⟩ := bind_eq_ok.mp hparse
  simp only [JsValue.field_of_ne, JsValue.field_self, ne_eq, String.reduceEq,
    not_false_eq_true] at ho hp
  refine ⟨nonblank_of_nonEmptyString ho, ?_⟩
  obtain ⟨snapshot, hs, _⟩ := bind_eq_ok.mp hp
  unfold Job.parseExecutionJobPlanSnapshot AcceptedMissionPlan.toValue at hs
  obtain ⟨fields, hf, hs⟩ := bind_eq_ok.mp hs
  cases hf
  obtain ⟨_, _, hs⟩ := bind_eq_ok.mp hs
  obtain ⟨values, hv, hs⟩ := bind_eq_ok.mp hs
  obtain ⟨steps, hm, _⟩ := bind_eq_ok.mp hs
  simp only [JsValue.field_of_ne, JsValue.field_self, ne_eq, String.reduceEq,
    not_false_eq_true] at hv
  have hlist := Job.eq_of_array hv
  rw [JsValue.arr.injEq] at hlist
  have hmap := Job.mapTuple_eq_ok.mp hm
  rw [← hlist] at hmap
  exact named_of_parse_steps hmap

/-- A checked job is accepted exactly when none of its open texts is blank. -/
theorem parse_iff (h : Checked P job) :
    (∃ r, parseExecutionJob P job.toValue = .ok r) ↔ job.Named := by
  constructor
  · rintro ⟨r, hr⟩
    exact named_of_parse hr
  · intro hn
    have hparse := parse_of_jobAccepted (jobAccepted_of_named h hn)
    rw [toAccepted_toValue] at hparse
    exact ⟨_, hparse⟩

end Jobs

end Qualigence.Mission
