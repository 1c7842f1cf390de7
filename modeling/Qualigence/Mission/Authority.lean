import Qualigence.Mission.Compatibility
import Qualigence.Runner.PolicyGate

/-! # Plans under the policy of their mission

Intake fixes the policy of a mission by its target. The Runner authorizes a navigation and a
click under it. It denies every input: the policy allows the kind but only the normal risk,
and an input is an external side effect.
-/

namespace Qualigence.Mission

open Foundation Protocol Runner

/-- The actions that a step can be resolved to at a target; a verification needs none. The
resolver of desktop actions looks for nodes by their meaning. -/
def IntentStep.Resolves (configuration : TargetConfiguration) :
    IntentStep → ResolvedAction → Prop
  | .navigate _, action => match configuration with
    | .web _ => ∃ url, action = .web (.navigate url)
    | .desktop _ => False
  | .click _, action => match configuration with
    | .web _ => ∃ target graphId,
      action = .web (.click target graphId) ∨ action = .legacyClick target graphId
    | .desktop _ => ∃ base, base.resolution = .semantic ∧ action = .desktop base .click
  | .input _ valueRef, action => match configuration with
    | .web _ => ∃ target graphId, action = .web (.input target graphId valueRef)
    | .desktop _ =>
      ∃ base, base.resolution = .semantic ∧ action = .desktop base (.input valueRef)
  | .verify _, _ => False

/-- A job of a mission: it carries the policy of the mission and the target of its dispatch. -/
structure CarriedBy (input : SaveCompiledMissionInput) (target : TargetRevision)
    (job : AcceptedExecutionJob) : Prop where
  policy : job.policy = input.mission.executionPolicy
  target : job.target = missionTargetRef input.dispatch.targetUrl target.configuration

section Authority

variable {P : PlanningPlatform} {target : TargetRevision} {plan : TestPlanRevision}
  {now : Timestamp} {command : CreateMissionCommand} {input : SaveCompiledMissionInput}

/-- Every action step of the plan is authorized at every instant before the policy expires. -/
def Authorized (P : Platform) (input : SaveCompiledMissionInput) (target : TargetRevision)
    (plan : TestPlanRevision) : Prop :=
  ∀ t ∈ plan.testCases.toList, ∀ step ∈ t.steps.toList, ∀ action,
    step.Resolves target.configuration action → ∀ job, CarriedBy input target job →
    ∀ instant expiresAt, parseInstant job.policy.expiresAt = some expiresAt →
      instant < expiresAt → (authorize P job.policy instant action job).isAllowed = true

/-- What a policy of intake says, whatever the target. -/
theorem policy_of_approvedPolicy {wallClock : ℕ} {policy : ApprovedExecutionPolicy}
    (h : approvedPolicy target now wallClock = .ok policy) :
    policy.environment = .isolatedTest ∧ policy.maximumRisk = .normal ∧
    policy.allowedOrigins = (match target.configuration with
      | .web c => c.allowedOrigins
      | .desktop _ => ["https://desktop.invalid"]) ∧
    policy.allowedActionKinds = (match target.configuration with
      | .web _ => [.navigate, .click, .input]
      | .desktop _ => [.click, .input]) := by
  unfold approvedPolicy at h
  split at h
  · cases h
  · cases h
    exact ⟨rfl, rfl, rfl, rfl⟩

/-- A policy with an expiry that the check accepts has an instant before its expiry. -/
theorem expiresAt_of_validate {wallClock : ℕ} {policy : ApprovedExecutionPolicy}
    (h : validateApprovedExecutionPolicy P.toPlatform policy wallClock = .ok ()) :
    ∃ expiresAt, parseInstant policy.expiresAt = some expiresAt := by
  unfold validateApprovedExecutionPolicy at h
  split at h
  · cases h
  obtain ⟨issued, _, h⟩ := bind_eq_ok.mp h
  obtain ⟨expires, he, _⟩ := bind_eq_ok.mp h
  exact ⟨expires, (isInstant_of_parseCanonicalInstant he).2⟩

theorem targetAllowed_of_carried {policy : ApprovedExecutionPolicy}
    (hv : target.configuration.Valid P)
    (horigins : policy.allowedOrigins = (match target.configuration with
      | .web c => c.allowedOrigins
      | .desktop _ => ["https://desktop.invalid"])) :
    isTargetAllowed P.toPlatform policy
      (missionTargetRef (dispatchDescriptor P.toPlatform target plan).targetUrl
        target.configuration) = true := by
  unfold dispatchDescriptor
  dsimp only
  cases hc : target.configuration with
  | web c =>
    rw [hc] at hv horigins
    obtain ⟨_, ⟨url, hurl, _, _, _, horigin⟩, _⟩ := hv
    change policy.allowedOrigins.contains (((P.newUrl c.startUrl).map (·.origin)).getD "") = true
    rw [hurl, horigins]
    simpa using horigin
  | desktop app => rfl

/-- An action that is resolved from a step other than an input has a kind that intake allows
and the normal risk. -/
theorem normal_of_resolves {step : IntentStep} {action : ResolvedAction}
    (hstep : step.kind ≠ .input) (h : step.Resolves target.configuration action) :
    action.kind ∈ (match target.configuration with
      | .web _ => [ActionKind.navigate, .click, .input]
      | .desktop _ => [.click, .input]) ∧ riskFor action = .normal ∧ isFallback action = false := by
  cases step with
  | navigate path =>
    cases hc : target.configuration with
    | web c =>
      simp only [IntentStep.Resolves, hc] at h
      obtain ⟨url, rfl⟩ := h
      simp [ResolvedAction.kind, ResolvedWebAction.kind, riskFor, isFallback]
    | desktop app =>
      simp only [IntentStep.Resolves, hc] at h
  | click t =>
    cases hc : target.configuration with
    | web c =>
      simp only [IntentStep.Resolves, hc] at h
      obtain ⟨element, graphId, rfl | rfl⟩ := h
      · simp [ResolvedAction.kind, ResolvedWebAction.kind, riskFor, isFallback]
      · simp [ResolvedAction.kind, riskFor, isFallback]
    | desktop app =>
      simp only [IntentStep.Resolves, hc] at h
      obtain ⟨base, hbase, rfl⟩ := h
      simp [ResolvedAction.kind, DesktopActionDetail.kind, riskFor, isFallback, hbase]
  | input t valueRef => exact absurd rfl hstep
  | verify claimIds => exact False.elim h

/-- An input is an external side effect. -/
theorem exists_external_input (configuration : TargetConfiguration) (t : SemanticTarget)
    (valueRef : String) :
    ∃ action, (IntentStep.input t valueRef).Resolves configuration action ∧
      riskFor action = .externalSideEffect := by
  cases configuration with
  | web c =>
    refine ⟨.web (.input ⟨"", ""⟩ "" valueRef), ?_, rfl⟩
    simp [IntentStep.Resolves]
  | desktop app =>
    refine ⟨.desktop ⟨"", "", "", .semantic, none⟩ (.input valueRef), ?_, rfl⟩
    simp [IntentStep.Resolves]

/-- The policy of a mission authorizes every action step of its plan exactly when the plan has
no input step. -/
theorem authorized_iff_no_input (hP : P.Lawful) {request : CreateTargetRevisionInput}
    (ht : createTargetRevision P request = .ok target)
    (hi : intakeMission P.toPlatform now command (some target) (some plan) = .ok input) :
    Authorized P.toPlatform input target plan ↔
      ∀ t ∈ plan.testCases.toList, ∀ step ∈ t.steps.toList, step.kind ≠ .input := by
  have hv := valid_of_createTargetRevision hP ht
  obtain ⟨_, _, policy, htarget, hplan, _, hpolicy, hfrom⟩ := intakeMission_cases hi
  cases htarget
  cases hplan
  obtain ⟨henvironment, hrisk, horigins, hkinds⟩ := policy_of_approvedPolicy hpolicy
  constructor
  · intro hall t htest step hstep hinput
    cases step with
    | input semantic valueRef =>
      obtain ⟨action, hresolves, hside⟩ :=
        exists_external_input target.configuration semantic valueRef
      obtain ⟨expiresAt, hexpires⟩ := expiresAt_of_validate hfrom.mission.valid
      let job : AcceptedExecutionJob := {
        jobId := "", runId := "", projectId := "", objective := "", plan := none
        target := missionTargetRef input.dispatch.targetUrl target.configuration
        policy := input.mission.executionPolicy }
      have hexpires' : parseInstant job.policy.expiresAt = some expiresAt := by
        change parseInstant input.mission.executionPolicy.expiresAt = _
        rw [hfrom.mission.carries]
        exact hexpires
      have hallowed := hall t htest _ hstep action hresolves job ⟨rfl, rfl⟩ (expiresAt - 1)
        expiresAt hexpires' (by omega)
      have hmaximum : job.policy.maximumRisk = .normal := by
        change input.mission.executionPolicy.maximumRisk = _
        rw [hfrom.mission.carries]
        exact hrisk
      obtain ⟨_, _, _, _, _, _, _, hrank, _⟩ := isAllowed_iff.mp hallowed
      rw [hside, hmaximum] at hrank
      exact absurd hrank (by decide)
    | _ => cases hinput
  · intro hnone t htest step hstep action hresolves job hjob instant expiresAt hexpires hbefore
    obtain ⟨hkind, hnormal, hfallback⟩ := normal_of_resolves (hnone t htest step hstep) hresolves
    have hcarried : job.policy = policy := hjob.policy.trans hfrom.mission.carries
    rw [hcarried] at hexpires ⊢
    have hparse := parse_policy_of_validate hfrom.mission.valid
      (isBlank_of_approvedPolicy hv hpolicy)
    refine isAllowed_iff.mpr ⟨⟨policy, hparse⟩, ⟨expiresAt, hexpires, hbefore⟩, ?_, ?_, ?_, ?_,
      ?_, ?_, hfallback, ?_⟩
    · rw [hjob.target, hfrom.dispatch]
      exact targetAllowed_of_carried hv horigins
    · rw [henvironment]
      nofun
    · rw [hkinds]
      exact hkind
    · rw [hrisk]
      nofun
    · rw [hnormal]
      nofun
    · rw [hrisk, hnormal]
    · rw [henvironment]
      nofun

end Authority

/-! ## A plan with an input -/

/-- The revision that the sample target becomes. -/
def sampleTargetRevision : TargetRevision where
  targetId := "target"
  projectId := "project"
  displayName := "Shop"
  runnerId := "runner"
  version := 1
  snapshotHash := sampleMissionCommand.targetSnapshotHash
  configuration := .web ⟨sampleUrl, [sampleOrigin], none⟩

def samplePlanRef : PrdSourceRef := ⟨"prd", 1, 0, 15, sampleContentHash⟩

def samplePlanClaim : ExpectedClaim where
  claimId := "d74977c23e88996dcaca8aba14db4cb8"
  semanticKey := "page-opens"
  statement := "The page opens"
  sourceRefs := ⟨samplePlanRef, []⟩
  confidence := .int 1

/-- The approved plan that the sample proposal becomes. -/
def samplePlan (steps : NonEmptyList IntentStep) : TestPlanRevision where
  planId := sampleMissionCommand.planId
  projectId := "project"
  prdId := "prd"
  prdRevision := 1
  version := 2
  status := .approved
  expectedClaims := ⟨samplePlanClaim, []⟩
  testCases := ⟨{
    id := "7f3d7ae11d82f0b3968efab933767824", title := "Open", objective := "Open the page"
    preconditions := [], steps, expectedClaims := ⟨samplePlanClaim, []⟩
    sourceRefs := ⟨samplePlanRef, []⟩, priority := .high }, []⟩
  approval := some ⟨"reviewer", sampleNow, "approve-key"⟩

theorem authorized_iff_no_input_sample : ∃ input,
    intakeMission samplePlanning.toPlatform sampleNow sampleMissionCommand
      (some sampleTargetRevision) (some (samplePlan ⟨.navigate "/", []⟩)) = .ok input ∧
    Authorized samplePlanning.toPlatform input sampleTargetRevision
      (samplePlan ⟨.navigate "/", []⟩) := by
  have hok : (intakeMission samplePlanning.toPlatform sampleNow sampleMissionCommand
      (some sampleTargetRevision) (some (samplePlan ⟨.navigate "/", []⟩))).toOption.isSome =
        true := by decide +kernel
  cases h : intakeMission samplePlanning.toPlatform sampleNow sampleMissionCommand
      (some sampleTargetRevision) (some (samplePlan ⟨.navigate "/", []⟩)) with
  | error e =>
    rw [h] at hok
    cases hok
  | ok input =>
    have htarget : createTargetRevision samplePlanning sampleTarget =
        .ok sampleTargetRevision := by decide +kernel
    refine ⟨input, rfl, (authorized_iff_no_input samplePlanning_lawful htarget h).mpr ?_⟩
    decide

/-- The steps of a proposal that navigates and inputs a name. -/
def sampleInputSteps : List JsValue :=
  sampleSteps ++ ([.obj [("kind", .str "input"),
    ("target", .obj [("purpose", .str "enter the name")]), ("valueRef", .str "account/name")]] :
      List JsValue)

def sampleInputPlan : TestPlanRevision :=
  samplePlan ⟨.navigate "/", [.input ⟨"enter the name", none, none⟩ "account/name"]⟩

def sampleInput : ResolvedAction := .web (.input ⟨"node", "#name"⟩ "graph" "account/name")

/-- A job of the sample mission. -/
def sampleJobOf (input : SaveCompiledMissionInput) : AcceptedExecutionJob where
  jobId := "job-0"
  runId := "run-0"
  projectId := "project"
  target := missionTargetRef input.dispatch.targetUrl sampleTargetRevision.configuration
  objective := "Open the page"
  policy := input.mission.executionPolicy
  plan := none

/-- A plan with an input is approved and compiled, and its policy denies the input. -/
theorem input_step_is_denied :
    latestPlan (MissionWorld.after samplePlanning
      ((sampleEvents "Open the page" sampleInputSteps).take 3)).db sampleInputPlan.planId =
      some sampleInputPlan ∧
    ∃ input, intakeMission samplePlanning.toPlatform sampleNow sampleMissionCommand
        (some sampleTargetRevision) (some sampleInputPlan) = .ok input ∧
      authorize samplePlanning.toPlatform input.mission.executionPolicy 1767225600000
        sampleInput (sampleJobOf input) = .denied "RiskDenied" ∧
      ¬ Authorized samplePlanning.toPlatform input sampleTargetRevision sampleInputPlan := by
  refine ⟨by decide +kernel, ?_⟩
  have hrun : (intakeMission samplePlanning.toPlatform sampleNow sampleMissionCommand
      (some sampleTargetRevision) (some sampleInputPlan)).toOption.map (fun input =>
        (authorize samplePlanning.toPlatform input.mission.executionPolicy 1767225600000
          sampleInput (sampleJobOf input),
        parseInstant input.mission.executionPolicy.expiresAt)) =
      some (.denied "RiskDenied", some 1767225660000) := by decide +kernel
  cases h : intakeMission samplePlanning.toPlatform sampleNow sampleMissionCommand
      (some sampleTargetRevision) (some sampleInputPlan) with
  | error e =>
    rw [h] at hrun
    cases hrun
  | ok input =>
    rw [h] at hrun
    obtain ⟨hdenied, hexpires⟩ := Prod.mk.inj (Option.some.inj hrun)
    refine ⟨input, rfl, hdenied, fun hall => ?_⟩
    have hallowed := hall _ List.mem_cons_self
      (.input ⟨"enter the name", none, none⟩ "account/name") (by decide) sampleInput
      ⟨_, _, rfl⟩ (sampleJobOf input) ⟨rfl, rfl⟩ 1767225600000 _ hexpires (by decide)
    change (authorize samplePlanning.toPlatform input.mission.executionPolicy 1767225600000
      sampleInput (sampleJobOf input)).isAllowed = true at hallowed
    rw [hdenied] at hallowed
    cases hallowed

end Qualigence.Mission
