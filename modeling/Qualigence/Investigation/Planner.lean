import Qualigence.Foundation.Program
import Qualigence.Intelligence.Applier
import Qualigence.Investigation.Case
import Qualigence.Mission.Plan

/-! # Reproduction plans

The proposals of the model are parsed to plans and bug episodes. A step of a plan names its target
by its meaning: a target that carries a locator is refused, and an accepted plan is read back as it
is.
-/

namespace Qualigence.Investigation

open Intelligence Mission Protocol

structure ReproductionPlan where
  caseId : String
  planRevision : ℕ
  steps : List IntentStep
  rationale : String
  deriving DecidableEq

structure BuildIntelligenceJobInput where
  jobId : String
  caseId : String
  projectId : String
  tenantId : String
  baseAggregateVersion : ℕ
  inputRefs : List String
  modelProfileId : String
  dataPolicyId : String
  budget : IntelligenceJobBudget
  idempotencyKey : String
  causationId : String

def buildReproductionPlanningJob (input : BuildIntelligenceJobInput) : IntelligenceJob where
  jobId := input.jobId
  jobType := .reproductionPlanning
  schemaVersion := "intelligence-job/v1"
  tenantId := input.tenantId
  projectId := input.projectId
  aggregateRef := ⟨"investigation", input.caseId⟩
  baseAggregateVersion := input.baseAggregateVersion
  inputRefs := input.inputRefs
  modelProfileId := input.modelProfileId
  dataPolicyId := input.dataPolicyId
  budget := input.budget
  priority := .normal
  idempotencyKey := input.idempotencyKey
  causationId := input.causationId
  expectedResultSchema := resultSchema

def buildBugAnalysisJob (input : BuildIntelligenceJobInput) : IntelligenceJob :=
  { buildReproductionPlanningJob input with jobType := .bugAnalysis }

/-! ## Parsing -/

inductive ReproductionPlanError where
  | stepNotObject
  | navigatePath
  | inputValueRef
  | verifyClaimIds
  | unsupportedKind (kind : JsValue)
  | targetNotObject
  | targetPurpose
  | forbiddenLocator (name : String)
  | noPlanningProposal
  | stepsRequired
  | noAnalysisProposal
  | noConfirmedAttempt

/-- The text of an error; `string` is `String(...)`. -/
def ReproductionPlanError.message (string : JsValue → String) : ReproductionPlanError → String
  | stepNotObject => "A reproduction step must be an object."
  | navigatePath => "A navigate step requires a path."
  | inputValueRef => "An input step requires a valueRef."
  | verifyClaimIds => "A verify step requires a non-empty claimIds array."
  | unsupportedKind kind => "Unsupported reproduction step kind " ++ string kind ++ "."
  | targetNotObject => "A step target must be an object."
  | targetPurpose => "A step target requires a purpose."
  | forbiddenLocator name =>
    "A reproduction step target must not carry a " ++ name ++ " locator."
  | noPlanningProposal => "The planning result carried no proposal."
  | stepsRequired => "A reproduction plan requires steps."
  | noAnalysisProposal => "The analysis result carried no proposal."
  | noConfirmedAttempt => "A bug analysis must reference at least one confirmed attempt."

/-- The named properties of a value that is an object; those of an array are not looked at. -/
def objectOf : JsValue → Option (List (String × JsValue))
  | .obj fields => some fields
  | .arr _ => some []
  | _ => none

def textOf : JsValue → Option String
  | .str s => some s
  | _ => none

def forbiddenLocators : List String := ["selector", "css", "xpath", "coordinates", "script"]

def parseSemanticTarget (value : JsValue) : Except ReproductionPlanError SemanticTarget :=
  match objectOf value with
  | none => .error .targetNotObject
  | some target =>
    match JsValue.field "purpose" target with
    | .str purpose =>
      if purpose = "" then .error .targetPurpose
      else
        match forbiddenLocators.find? fun name => target.any fun field => field.1 = name with
        | some name => .error (.forbiddenLocator name)
        | none =>
          .ok ⟨purpose, textOf (JsValue.field "role" target), textOf (JsValue.field "name" target)⟩
    | _ => .error .targetPurpose

def parseIntentStep (value : JsValue) : Except ReproductionPlanError IntentStep :=
  match objectOf value with
  | none => .error .stepNotObject
  | some step =>
    match JsValue.field "kind" step with
    | .str "navigate" =>
      match JsValue.field "path" step with
      | .str path => if path = "" then .error .navigatePath else .ok (.navigate path)
      | _ => .error .navigatePath
    | .str "click" => IntentStep.click <$> parseSemanticTarget (JsValue.field "target" step)
    | .str "input" =>
      match JsValue.field "valueRef" step with
      | .str valueRef =>
        if valueRef = "" then .error .inputValueRef
        else (IntentStep.input · valueRef) <$> parseSemanticTarget (JsValue.field "target" step)
      | _ => .error .inputValueRef
    | .str "verify" =>
      match textArray (JsValue.field "claimIds" step) with
      | some (claimId :: claimIds) => .ok (.verify ⟨claimId, claimIds⟩)
      | _ => .error .verifyClaimIds
    | kind => .error (.unsupportedKind kind)

def reproductionPlanFromResult (caseId : String) (planRevision : ℕ) (result : IntelligenceResult) :
    Except ReproductionPlanError ReproductionPlan :=
  match result.proposals with
  | [] => .error .noPlanningProposal
  | proposal :: _ =>
    match JsValue.field "steps" proposal with
    | .arr (step :: steps) => do
      let steps ← (step :: steps).mapM parseIntentStep
      return ⟨caseId, planRevision, steps, (textOf (JsValue.field "rationale" proposal)).getD ""⟩
    | _ => .error .stepsRequired

def stringArray : JsValue → List String
  | .arr items => items.filterMap textOf
  | _ => []

/-- The texts among the entries of an object, or of an array by their indexes. Writing `__proto__`
stores nothing. -/
def stringRecord : JsValue → List (String × String)
  | .obj fields => fields.filterMap fun (key, item) =>
    if key = "__proto__" then none else (textOf item).map fun text => (key, text)
  | .arr items => items.zipIdx.filterMap fun (item, index) =>
    (textOf item).map fun text => (toString index, text)
  | _ => []

/-- Steps that are no array are left out. -/
def parseMinimalSteps : JsValue → Except ReproductionPlanError (List IntentStep)
  | .arr steps => steps.mapM parseIntentStep
  | _ => .ok []

def bugEpisodeDraftFromResult (result : IntelligenceResult) (fallbackEpisodeId : String) :
    Except ReproductionPlanError BugEpisodeDraft :=
  match result.proposals with
  | [] => .error .noAnalysisProposal
  | proposal :: _ =>
    match textArray (JsValue.field "confirmedAttemptIds" proposal) with
    | some (firstAttemptId :: confirmedAttemptIds) => do
      let minimalSteps ← parseMinimalSteps (JsValue.field "minimalSteps" proposal)
      return {
        episodeId := (textOf (JsValue.field "episodeId" proposal)).getD fallbackEpisodeId
        firstAttemptId
        confirmedAttemptIds
        expectedClaims := stringArray (JsValue.field "expectedClaims" proposal)
        observedFacts := stringArray (JsValue.field "observedFacts" proposal)
        minimalSteps := minimalSteps.map (·.toValue)
        environment := stringRecord (JsValue.field "environment" proposal)
        evidenceRefs := result.evidenceRefs
        confidence := result.confidence }
    | _ => .error .noConfirmedAttempt

/-! ## What is accepted -/

theorem exists_of_map_ok {ε α β : Type} {f : α → β} {x : Except ε α} {b : β}
    (h : f <$> x = .ok b) : ∃ a, x = .ok a ∧ f a = b := by
  cases x with
  | error error => cases h
  | ok a =>
    cases h
    exact ⟨a, rfl, rfl⟩

/-- What a target is told by. -/
structure Semantic (value : JsValue) (target : SemanticTarget) : Prop where
  object : ∃ fields, objectOf value = some fields ∧
    JsValue.field "purpose" fields = .str target.purpose ∧
    textOf (JsValue.field "role" fields) = target.role ∧
    textOf (JsValue.field "name" fields) = target.name ∧
    ∀ name ∈ forbiddenLocators, ∀ field ∈ fields, field.1 ≠ name
  purpose : target.purpose ≠ ""

theorem semantic_of_parse {value : JsValue} {target : SemanticTarget}
    (h : parseSemanticTarget value = .ok target) : Semantic value target := by
  unfold parseSemanticTarget at h
  split at h
  · cases h
  next fields hfields =>
  split at h
  next purpose hpurpose =>
    split at h
    · cases h
    next hne =>
    split at h
    · cases h
    next hnone =>
    cases h
    refine ⟨⟨fields, hfields, hpurpose, rfl, rfl, ?_⟩, hne⟩
    intro name hname field hfield he
    refine List.find?_eq_none.mp hnone name hname ?_
    exact List.any_eq_true.mpr ⟨field, hfield, decide_eq_true he⟩
  · cases h

theorem parse_toValue_target {target : SemanticTarget} (h : target.purpose ≠ "") :
    parseSemanticTarget target.toValue = .ok target := by
  obtain ⟨purpose, role, name⟩ := target
  cases role <;> cases name <;>
    simp_all [parseSemanticTarget, SemanticTarget.toValue, objectOf, JsValue.optional, textOf,
      forbiddenLocators, JsValue.field]

theorem textArray_strings (texts : List String) :
    textArray (AppTarget.strings texts) = some texts := by
  change (texts.map JsValue.str).mapM _ = some texts
  induction texts with
  | nil => rfl
  | cons text texts ih =>
    rw [List.map_cons, List.mapM_cons, ih]
    rfl

/-- A step and what it was parsed from. -/
structure Parsed (value : JsValue) (step : IntentStep) : Prop where
  parse : parseIntentStep value = .ok step
  again : parseIntentStep step.toValue = .ok step
  semantic : ∃ fields, objectOf value = some fields ∧ match step with
    | .click target | .input target _ => Semantic (JsValue.field "target" fields) target
    | .navigate path => path ≠ ""
    | .verify _ => True

theorem parsed_of_parse {value : JsValue} {step : IntentStep}
    (h : parseIntentStep value = .ok step) : Parsed value step := by
  have hparse := h
  unfold parseIntentStep at h
  split at h
  · cases h
  next fields hfields =>
  split at h
  · split at h
    · split at h
      · cases h
      next hne =>
      cases h
      exact ⟨hparse, if_neg hne, fields, hfields, hne⟩
    · cases h
  · obtain ⟨target, htarget, rfl⟩ := exists_of_map_ok h
    have hsemantic := semantic_of_parse htarget
    refine ⟨hparse, ?_, fields, hfields, hsemantic⟩
    change IntentStep.click <$> parseSemanticTarget target.toValue = _
    rw [parse_toValue_target hsemantic.purpose]
    rfl
  · split at h
    next valueRef _ =>
      split at h
      · cases h
      next hne =>
      obtain ⟨target, htarget, rfl⟩ := exists_of_map_ok h
      have hsemantic := semantic_of_parse htarget
      refine ⟨hparse, ?_, fields, hfields, hsemantic⟩
      change (if valueRef = "" then _ else _) = _
      rw [if_neg hne]
      change (IntentStep.input · valueRef) <$> parseSemanticTarget target.toValue = _
      rw [parse_toValue_target hsemantic.purpose]
      rfl
    · cases h
  · split at h
    next claimId claimIds _ =>
      cases h
      refine ⟨hparse, ?_, fields, hfields, trivial⟩
      change (match textArray (AppTarget.strings (claimId :: claimIds)) with
        | some (claimId :: claimIds) => Except.ok (IntentStep.verify ⟨claimId, claimIds⟩)
        | _ => Except.error ReproductionPlanError.verifyClaimIds) = _
      rw [textArray_strings]
    · cases h
  · cases h

theorem forall₂_of_mapM {ε α β : Type} {f : α → Except ε β} {xs : List α} {ys : List β}
    (h : xs.mapM f = .ok ys) : List.Forall₂ (fun x y => f x = .ok y) xs ys := by
  induction xs generalizing ys with
  | nil =>
    cases h
    exact .nil
  | cons x xs ih =>
    rw [List.mapM_cons] at h
    obtain ⟨y, hy, h⟩ := Foundation.bind_eq_ok.mp h
    obtain ⟨rest, hrest, h⟩ := Foundation.bind_eq_ok.mp h
    cases h
    exact .cons hy (ih hrest)

theorem mapM_of_forall {ε α β : Type} {f : α → Except ε β} {g : β → α} {ys : List β}
    (h : ∀ y ∈ ys, f (g y) = .ok y) : (ys.map g).mapM f = .ok ys := by
  induction ys with
  | nil => rfl
  | cons y ys ih =>
    rw [List.map_cons, List.mapM_cons, h y List.mem_cons_self,
      ih fun z hz => h z (List.mem_cons_of_mem _ hz)]
    rfl

/-- The object that a plan is proposed as. -/
def ReproductionPlan.toProposal (plan : ReproductionPlan) : List (String × JsValue) :=
  [("steps", .arr (plan.steps.map (·.toValue))), ("rationale", .str plan.rationale)]

theorem reproductionPlanFromResult_of_steps {caseId : String} {planRevision : ℕ}
    {result : IntelligenceResult} {proposal : List (String × JsValue)}
    {rest : List (List (String × JsValue))} {step : JsValue} {steps : List JsValue}
    (hproposals : result.proposals = proposal :: rest)
    (hsteps : JsValue.field "steps" proposal = .arr (step :: steps)) :
    reproductionPlanFromResult caseId planRevision result =
      (step :: steps).mapM parseIntentStep >>= fun parsed => Except.ok
        ⟨caseId, planRevision, parsed, (textOf (JsValue.field "rationale" proposal)).getD ""⟩ := by
  unfold reproductionPlanFromResult
  rw [hproposals]
  simp only [hsteps]
  rfl

/-- A plan that is accepted has the steps of the proposal, one for one. Their targets carry no
locators, and the plan that is proposed again is accepted as it is. -/
theorem accepted_plan_is_semantic (caseId : String) (planRevision : ℕ)
    (result : IntelligenceResult) (plan : ReproductionPlan)
    (h : reproductionPlanFromResult caseId planRevision result = .ok plan) :
    (∃ proposal rest items, result.proposals = proposal :: rest ∧
      JsValue.field "steps" proposal = .arr items ∧ items ≠ [] ∧
      List.Forall₂ Parsed items plan.steps) ∧
    reproductionPlanFromResult caseId planRevision
      { result with proposals := [plan.toProposal] } = .ok plan := by
  unfold reproductionPlanFromResult at h
  split at h
  · cases h
  next proposal rest hproposals =>
  split at h
  next step steps hsteps =>
    obtain ⟨parsed, hparsed, h⟩ := Foundation.bind_eq_ok.mp h
    cases h
    have hall : List.Forall₂ Parsed (step :: steps) parsed :=
      (forall₂_of_mapM hparsed).imp fun _ _ hstep => parsed_of_parse hstep
    refine ⟨⟨proposal, rest, step :: steps, hproposals, hsteps, List.cons_ne_nil _ _, hall⟩, ?_⟩
    have hagain : (parsed.map (·.toValue)).mapM parseIntentStep = .ok parsed := by
      refine mapM_of_forall fun y hy => ?_
      obtain ⟨x, -, hx⟩ := Foundation.exists_of_mapM hparsed y hy
      exact (parsed_of_parse hx).again
    cases hall with
    | @cons _ y _ ys _ _ =>
      rw [reproductionPlanFromResult_of_steps rfl
        (by rw [ReproductionPlan.toProposal, JsValue.field_cons, if_pos rfl, List.map_cons])]
      rw [List.map_cons] at hagain
      rw [hagain]
      rfl
  · cases h

def clickPlanning : IntelligenceResult where
  jobId := "job"
  resultSchemaVersion := resultSchema
  proposals := [[("steps", .arr [.obj [("kind", .str "click"),
    ("target", .obj [("purpose", .str "log in"), ("testId", .str "login")])]])]]
  evidenceRefs := []
  confidence := 1
  usage := ⟨some 1, some 1, some 1⟩
  terminalStatus := .succeeded
  idempotencyKey := "key"

theorem click_plan_is_semantic :
    ∃ plan, reproductionPlanFromResult "case" 1 clickPlanning = .ok plan ∧
      reproductionPlanFromResult "case" 1
        { clickPlanning with proposals := [plan.toProposal] } = .ok plan :=
  ⟨⟨"case", 1, [.click ⟨"log in", none, none⟩], ""⟩, rfl,
    (accepted_plan_is_semantic "case" 1 clickPlanning _ rfl).2⟩

end Qualigence.Investigation
