import Qualigence.Foundation.Program
import Qualigence.Protocol.AppTarget
import Qualigence.Protocol.Instant

/-! # Execution jobs

A job as Core issues it to a Runner: its identity, its target, the policy snapshot that
bounds it and the optional plan snapshot. `parseExecutionJob` is the strict parser that
the wire, the persisted lease and the Runner share.
-/

namespace Qualigence.Protocol

open Foundation

inductive TargetRef where
  | web (url : String)
  | desktop (app : AppTarget)
  deriving DecidableEq

inductive PolicyEnvironment where
  | isolatedTest
  | staging
  | production
  deriving DecidableEq

inductive ActionKind where
  | navigate
  | click
  | input
  | select
  | scroll
  | window
  deriving DecidableEq

inductive PolicyRisk where
  | normal
  | externalSideEffect
  | destructive
  | productionForbidden
  deriving DecidableEq

/-- The authority snapshot of one accepted job. -/
structure ExecutionPolicySnapshot where
  policyId : String
  environment : PolicyEnvironment
  allowedOrigins : List String
  allowedActionKinds : List ActionKind
  maximumRisk : PolicyRisk
  explorationAllowed : Bool
  issuedAt : Timestamp
  expiresAt : Timestamp
  deriving DecidableEq

/-- A tuple `[T, ...T[]]`. -/
structure NonEmptyList (α : Type) where
  first : α
  rest : List α
  deriving DecidableEq

def NonEmptyList.toList {α : Type} (xs : NonEmptyList α) : List α := xs.first :: xs.rest

structure ExecutionPlanTarget where
  role : Option String
  name : Option String
  purpose : String
  deriving DecidableEq

inductive ScrollDirection where
  | up
  | down
  | left
  | right
  deriving DecidableEq

inductive ScrollAmount where
  | small
  | page
  deriving DecidableEq

/-- A step of a plan. The kinds that the legacy form has may lack an index. -/
inductive ExecutionPlanStep where
  | navigate (stepIndex : Option ℕ) (path : String)
  | click (stepIndex : Option ℕ) (target : ExecutionPlanTarget)
  | input (stepIndex : Option ℕ) (target : ExecutionPlanTarget) (valueRef : String)
  | select (stepIndex : ℕ) (target : ExecutionPlanTarget) (valueRef : String)
  | scroll (stepIndex : ℕ) (target : Option ExecutionPlanTarget)
      (direction : ScrollDirection) (amount : ScrollAmount)
  | verify (stepIndex : Option ℕ) (claimIds : NonEmptyList String)
  deriving DecidableEq

structure ExecutionPlanBudget where
  maximumStepsPerJob : ℕ
  maximumWallClockMs : ℕ
  maximumModelTokens : ℕ
  deriving DecidableEq

structure ExecutionJobPlanSnapshot where
  missionId : String
  missionRevision : ℕ
  testCaseId : String
  steps : NonEmptyList ExecutionPlanStep
  expectedClaimIds : NonEmptyList String
  budget : ExecutionPlanBudget
  deriving DecidableEq

structure AcceptedExecutionJob where
  jobId : String
  runId : String
  projectId : String
  target : TargetRef
  objective : String
  policy : ExecutionPolicySnapshot
  plan : Option ExecutionJobPlanSnapshot
  deriving DecidableEq

namespace ExecutionPlanStep

def stepIndex : ExecutionPlanStep → Option ℕ
  | navigate i _ | click i _ | input i _ _ | verify i _ => i
  | select i _ _ | scroll i _ _ _ => some i

/-- The action a step performs; a `verify` step performs none. -/
def actionKind : ExecutionPlanStep → Option ActionKind
  | navigate .. => some .navigate
  | click .. => some .click
  | input .. => some .input
  | select .. => some .select
  | scroll .. => some .scroll
  | verify .. => none

end ExecutionPlanStep

/-- What the parser of a job raises: `ExecutionPolicySnapshotError`, its subclass
`ExecutionPlanPolicyError`, or the error of a desktop target. -/
inductive JobError where
  | policySnapshot
  | planPolicy
  | appTarget (error : AppTargetError)
  deriving DecidableEq

/-- `error instanceof ExecutionPolicySnapshotError`. -/
def JobError.isPolicySnapshot : JobError → Bool
  | policySnapshot | planPolicy => true
  | appTarget _ => false

namespace Job

abbrev Parse (α : Type) := Except JobError α

def malformed {α : Type} : Parse α := .error .policySnapshot

def record : JsValue → Parse (List (String × JsValue))
  | .obj fields => .ok fields
  | _ => malformed

def exactKeys (value : List (String × JsValue)) (allowed : List String) : Parse Unit :=
  if value.all fun f => allowed.contains f.1 then .ok () else malformed

def nonEmptyString : JsValue → Parse String
  | .str s => if isBlank s then malformed else .ok s
  | _ => malformed

/-- `Number.MAX_SAFE_INTEGER`. -/
def maxSafeInteger : Int := 9007199254740991

def positiveSafeInteger : JsValue → Parse ℕ
  | .int n => if 0 < n ∧ n ≤ maxSafeInteger then .ok n.toNat else malformed
  | _ => malformed

def nonNegativeSafeInteger : JsValue → Parse ℕ
  | .int n => if 0 ≤ n ∧ n ≤ maxSafeInteger then .ok n.toNat else malformed
  | _ => malformed

def array : JsValue → Parse (NonEmptyList JsValue)
  | .arr (first :: rest) => .ok ⟨first, rest⟩
  | _ => malformed

def mapTuple {α β : Type} (f : α → Parse β) (xs : NonEmptyList α) : Parse (NonEmptyList β) := do
  let first ← f xs.first
  let rest ← xs.rest.mapM f
  .ok ⟨first, rest⟩

def stringTuple (value : JsValue) : Parse (NonEmptyList String) := do
  mapTuple nonEmptyString (← array value)

/-- A property that may be `undefined`. -/
def optionalOf {α : Type} (f : JsValue → Parse α) : JsValue → Parse (Option α)
  | .undefined => .ok none
  | v => some <$> f v

/-- A text out of a table. -/
def enumValue {α : Type} (table : List (String × α)) : JsValue → Parse α
  | .str s => match table.find? fun e => e.1 == s with
    | some e => .ok e.2
    | none => malformed
  | _ => malformed

def environments : List (String × PolicyEnvironment) :=
  [("isolated_test", .isolatedTest), ("staging", .staging), ("production", .production)]

def actionKinds : List (String × ActionKind) :=
  [("navigate", .navigate), ("click", .click), ("input", .input), ("select", .select),
    ("scroll", .scroll), ("window", .window)]

def risks : List (String × PolicyRisk) :=
  [("Normal", .normal), ("ExternalSideEffect", .externalSideEffect),
    ("Destructive", .destructive), ("ProductionForbidden", .productionForbidden)]

def directions : List (String × ScrollDirection) :=
  [("up", .up), ("down", .down), ("left", .left), ("right", .right)]

def amounts : List (String × ScrollAmount) := [("small", .small), ("page", .page)]

def isoInstant (value : JsValue) : Parse Timestamp := do
  let instant ← nonEmptyString value
  if isInstant instant then .ok instant else malformed

section Parse

variable (P : Platform)

def isHttp (url : Url) : Bool :=
  (url.protocol == "http:" || url.protocol == "https:") && url.username == "" &&
    url.password == ""

def parseOrigin (value : String) : Parse String :=
  if value.toList.contains '*' then malformed
  else match P.newUrl value with
    | some url => if isHttp url && url.origin == value then .ok value else malformed
    | none => malformed

def parseTargetUrl (value : JsValue) : Parse String := do
  let text ← nonEmptyString value
  match P.newUrl text with
  | some url => if isHttp url then .ok text else malformed
  | none => malformed

def parseExecutionPolicySnapshot (value : JsValue) : Parse ExecutionPolicySnapshot := do
  let policy ← record value
  let policyId ← nonEmptyString (JsValue.field "policyId" policy)
  let environment ← enumValue environments (JsValue.field "environment" policy)
  let origins ← stringTuple (JsValue.field "allowedOrigins" policy)
  let allowedOrigins ← origins.toList.mapM (parseOrigin P)
  let kinds ← array (JsValue.field "allowedActionKinds" policy)
  let allowedActionKinds ← kinds.toList.mapM (enumValue actionKinds)
  let maximumRisk ← enumValue risks (JsValue.field "maximumRisk" policy)
  match JsValue.field "explorationAllowed" policy with
  | .bool explorationAllowed =>
    let issuedAt ← isoInstant (JsValue.field "issuedAt" policy)
    let expiresAt ← isoInstant (JsValue.field "expiresAt" policy)
    if (parseInstant expiresAt).getD 0 ≤ (parseInstant issuedAt).getD 0 then malformed
    else if ¬ allowedOrigins.Nodup ∨ ¬ allowedActionKinds.Nodup then malformed
    else if environment = .staging ∧ (allowedActionKinds ≠ [.click] ∨ maximumRisk ≠ .normal ∨
        explorationAllowed = true) then malformed
    else .ok { policyId, environment, allowedOrigins, allowedActionKinds, maximumRisk,
               explorationAllowed, issuedAt, expiresAt }
  | _ => malformed

def parseTargetRef (value : JsValue) : Parse TargetRef := do
  let target ← record value
  match JsValue.field "kind" target with
  | .str "web" =>
    exactKeys target ["kind", "url"]
    .web <$> parseTargetUrl P (JsValue.field "url" target)
  | .str "desktop" =>
    exactKeys target ["kind", "app"]
    match AppTarget.validateAppTarget (JsValue.field "app" target) with
    | .ok app => .ok (.desktop app)
    | .error e => .error (.appTarget e)
  | _ => malformed

end Parse

def parseExecutionPlanTarget (value : JsValue) : Parse ExecutionPlanTarget := do
  let target ← record value
  exactKeys target ["role", "name", "purpose"]
  let role ← optionalOf nonEmptyString (JsValue.field "role" target)
  let name ← optionalOf nonEmptyString (JsValue.field "name" target)
  let purpose ← nonEmptyString (JsValue.field "purpose" target)
  .ok ⟨role, name, purpose⟩

/-- The keys of a step, with `stepIndex` when the step has one. -/
def indexedKeys (stepIndex : Option ℕ) (keys : List String) : List String :=
  match stepIndex with
  | none => keys
  | some _ => "stepIndex" :: keys

def parseExecutionPlanStep (value : JsValue) : Parse ExecutionPlanStep := do
  let step ← record value
  let stepIndex ← optionalOf nonNegativeSafeInteger (JsValue.field "stepIndex" step)
  match JsValue.field "kind" step with
  | .str "navigate" =>
    exactKeys step (indexedKeys stepIndex ["kind", "path"])
    .navigate stepIndex <$> nonEmptyString (JsValue.field "path" step)
  | .str "click" =>
    exactKeys step (indexedKeys stepIndex ["kind", "target"])
    .click stepIndex <$> parseExecutionPlanTarget (JsValue.field "target" step)
  | .str "input" =>
    exactKeys step (indexedKeys stepIndex ["kind", "target", "valueRef"])
    let target ← parseExecutionPlanTarget (JsValue.field "target" step)
    .input stepIndex target <$> nonEmptyString (JsValue.field "valueRef" step)
  | .str "select" =>
    exactKeys step ["stepIndex", "kind", "target", "valueRef"]
    let index ← nonNegativeSafeInteger (JsValue.field "stepIndex" step)
    let target ← parseExecutionPlanTarget (JsValue.field "target" step)
    .select index target <$> nonEmptyString (JsValue.field "valueRef" step)
  | .str "scroll" =>
    exactKeys step (match JsValue.field "target" step with
      | .undefined => ["stepIndex", "kind", "direction", "amount"]
      | _ => ["stepIndex", "kind", "target", "direction", "amount"])
    let target ← optionalOf parseExecutionPlanTarget (JsValue.field "target" step)
    let index ← nonNegativeSafeInteger (JsValue.field "stepIndex" step)
    let direction ← enumValue directions (JsValue.field "direction" step)
    .scroll index target direction <$> enumValue amounts (JsValue.field "amount" step)
  | .str "verify" =>
    exactKeys step (indexedKeys stepIndex ["kind", "claimIds"])
    .verify stepIndex <$> stringTuple (JsValue.field "claimIds" step)
  | _ => malformed

/-- Either no step has an index or every step has its position as its index. -/
def validateStepIndices (steps : List ExecutionPlanStep) : Parse Unit :=
  if steps.all fun step => step.stepIndex.isNone then .ok ()
  else if steps.zipIdx.all fun entry => entry.1.stepIndex == some entry.2 then .ok ()
  else malformed

def parseExecutionJobPlanSnapshot (value : JsValue) : Parse ExecutionJobPlanSnapshot := do
  let plan ← record value
  exactKeys plan
    ["missionId", "missionRevision", "testCaseId", "steps", "expectedClaimIds", "budget"]
  let steps ← mapTuple parseExecutionPlanStep (← array (JsValue.field "steps" plan))
  validateStepIndices steps.toList
  let expectedClaimIds ← stringTuple (JsValue.field "expectedClaimIds" plan)
  let budget ← record (JsValue.field "budget" plan)
  exactKeys budget ["maximumStepsPerJob", "maximumWallClockMs", "maximumModelTokens"]
  let maximumStepsPerJob ← positiveSafeInteger (JsValue.field "maximumStepsPerJob" budget)
  if steps.toList.length > maximumStepsPerJob then malformed
  else
    let missionId ← nonEmptyString (JsValue.field "missionId" plan)
    let missionRevision ← positiveSafeInteger (JsValue.field "missionRevision" plan)
    let testCaseId ← nonEmptyString (JsValue.field "testCaseId" plan)
    let maximumWallClockMs ← positiveSafeInteger (JsValue.field "maximumWallClockMs" budget)
    let maximumModelTokens ← positiveSafeInteger (JsValue.field "maximumModelTokens" budget)
    .ok { missionId, missionRevision, testCaseId, steps, expectedClaimIds,
          budget := { maximumStepsPerJob, maximumWallClockMs, maximumModelTokens } }

/-- A step of the indexed form whose action the policy does not allow. -/
def isForbidden (policy : ExecutionPolicySnapshot) (step : ExecutionPlanStep) : Bool :=
  step.stepIndex.isSome && step.actionKind.any fun kind => !policy.allowedActionKinds.contains kind

end Job

open Job in
/-- The strict parser of jobs. -/
def parseExecutionJob (P : Platform) (value : JsValue) : Parse AcceptedExecutionJob := do
  let raw ← record value
  let jobId ← nonEmptyString (JsValue.field "jobId" raw)
  let runId ← nonEmptyString (JsValue.field "runId" raw)
  let projectId ← nonEmptyString (JsValue.field "projectId" raw)
  let target ← parseTargetRef P (JsValue.field "target" raw)
  let objective ← nonEmptyString (JsValue.field "objective" raw)
  let policy ← parseExecutionPolicySnapshot P (JsValue.field "policy" raw)
  let plan ← optionalOf parseExecutionJobPlanSnapshot (JsValue.field "plan" raw)
  if plan.any fun p => p.steps.toList.any (isForbidden policy) then .error .planPolicy
  else .ok { jobId, runId, projectId, target, objective, policy, plan }

/-! ## The object a job is written as -/

/-- The text of an enumeration value in its table. -/
def enumText {α : Type} [DecidableEq α] (table : List (String × α)) (a : α) : JsValue :=
  match table.find? fun e => e.2 = a with
  | some e => .str e.1
  | none => .undefined

def ExecutionPolicySnapshot.toValue (p : ExecutionPolicySnapshot) : JsValue :=
  .obj [("policyId", .str p.policyId), ("environment", enumText Job.environments p.environment),
    ("allowedOrigins", AppTarget.strings p.allowedOrigins),
    ("allowedActionKinds", .arr (p.allowedActionKinds.map (enumText Job.actionKinds))),
    ("maximumRisk", enumText Job.risks p.maximumRisk),
    ("explorationAllowed", .bool p.explorationAllowed), ("issuedAt", .str p.issuedAt),
    ("expiresAt", .str p.expiresAt)]

def TargetRef.toValue : TargetRef → JsValue
  | .web url => .obj [("kind", .str "web"), ("url", .str url)]
  | .desktop app => .obj [("kind", .str "desktop"), ("app", app.toValue)]

def ExecutionPlanTarget.toValue (t : ExecutionPlanTarget) : JsValue :=
  .obj (("purpose", .str t.purpose) :: JsValue.optional "role" (t.role.map .str) ++
    JsValue.optional "name" (t.name.map .str))

def ExecutionPlanStep.toValue (step : ExecutionPlanStep) : JsValue :=
  .obj (JsValue.optional "stepIndex" (step.stepIndex.map fun i => .int i) ++
    match step with
    | navigate _ path => [("kind", .str "navigate"), ("path", .str path)]
    | click _ target => [("kind", .str "click"), ("target", target.toValue)]
    | input _ target valueRef =>
      [("kind", .str "input"), ("target", target.toValue), ("valueRef", .str valueRef)]
    | select _ target valueRef =>
      [("kind", .str "select"), ("target", target.toValue), ("valueRef", .str valueRef)]
    | scroll _ target direction amount =>
      ("kind", .str "scroll") :: JsValue.optional "target" (target.map (·.toValue)) ++
        [("direction", enumText Job.directions direction), ("amount", enumText Job.amounts amount)]
    | verify _ claimIds =>
      [("kind", .str "verify"), ("claimIds", AppTarget.strings claimIds.toList)])

def ExecutionJobPlanSnapshot.toValue (p : ExecutionJobPlanSnapshot) : JsValue :=
  .obj [("missionId", .str p.missionId), ("missionRevision", .int p.missionRevision),
    ("testCaseId", .str p.testCaseId), ("steps", .arr (p.steps.toList.map (·.toValue))),
    ("expectedClaimIds", AppTarget.strings p.expectedClaimIds.toList),
    ("budget", .obj [("maximumStepsPerJob", .int p.budget.maximumStepsPerJob),
      ("maximumWallClockMs", .int p.budget.maximumWallClockMs),
      ("maximumModelTokens", .int p.budget.maximumModelTokens)])]

def AcceptedExecutionJob.toValue (job : AcceptedExecutionJob) : JsValue :=
  .obj ([("jobId", .str job.jobId), ("runId", .str job.runId),
    ("projectId", .str job.projectId), ("target", job.target.toValue),
    ("objective", .str job.objective), ("policy", job.policy.toValue)] ++
    JsValue.optional "plan" (job.plan.map (·.toValue)))

section Identity

variable {P : Platform} {job job' : AcceptedExecutionJob}

theorem Job.nonEmptyString_eq_ok {value : JsValue} {s : String}
    (h : Job.nonEmptyString value = .ok s) : value = .str s := by
  unfold Job.nonEmptyString Job.malformed at h
  split at h
  · split at h
    · cases h
    · cases h
      rfl
  · cases h

/-- A parsed job is named as the properties of its value say. -/
theorem identity_of_parse {raw : List (String × JsValue)}
    (h : parseExecutionJob P (.obj raw) = .ok job) :
    JsValue.field "jobId" raw = .str job.jobId ∧ JsValue.field "runId" raw = .str job.runId := by
  unfold parseExecutionJob at h
  obtain ⟨_, ⟨⟩, h⟩ := bind_eq_ok.mp h
  obtain ⟨jobId, hj, h⟩ := bind_eq_ok.mp h
  obtain ⟨runId, hr, h⟩ := bind_eq_ok.mp h
  obtain ⟨projectId, -, h⟩ := bind_eq_ok.mp h
  obtain ⟨target, -, h⟩ := bind_eq_ok.mp h
  obtain ⟨objective, -, h⟩ := bind_eq_ok.mp h
  obtain ⟨policy, -, h⟩ := bind_eq_ok.mp h
  obtain ⟨plan, -, h⟩ := bind_eq_ok.mp h
  split at h
  · cases h
  · cases h
    exact ⟨Job.nonEmptyString_eq_ok hj, Job.nonEmptyString_eq_ok hr⟩

/-- A job that is written and read back keeps its identity. -/
theorem identity_of_parse_toValue (h : parseExecutionJob P job.toValue = .ok job') :
    job'.jobId = job.jobId ∧ job'.runId = job.runId := by
  obtain ⟨hj, hr⟩ := identity_of_parse h
  simp only [List.cons_append, JsValue.field_cons, if_true, String.reduceEq,
    if_false, JsValue.str.injEq] at hj hr
  exact ⟨hj.symm, hr.symm⟩

end Identity

end Qualigence.Protocol
