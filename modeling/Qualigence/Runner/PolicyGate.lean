import Qualigence.Protocol.Job
import Qualigence.Protocol.Json

/-! # The policy gate of a Runner

The gate decides about every resolved action of a run by the policy of its job: the policy
has to be well formed and not expired, the target has to be at an allowed origin, and the
kind and the risk of the action have to be within the policy.
-/

namespace Qualigence.Runner

open Protocol

/-! ## Resolved actions -/

structure WebElement where
  nodeId : String
  selector : String
  deriving DecidableEq

inductive WindowOperation where
  | focus
  | minimize
  | restore
  | close
  deriving DecidableEq

inductive DesktopActionResolution where
  | semantic
  | uia
  | visual
  | coordinate
  deriving DecidableEq

inductive ResolvedWebAction where
  | navigate (url : String)
  | click (target : WebElement) (graphId : String)
  | input (target : WebElement) (graphId : String) (valueRef : String)
  | select (target : WebElement) (graphId : String) (valueRef : String)
  | scroll (target : Option WebElement) (graphId : String) (direction : ScrollDirection)
      (amount : ScrollAmount)
  deriving DecidableEq

structure ResolvedDesktopActionBase where
  actionId : String
  graphId : String
  nodeId : String
  resolution : DesktopActionResolution
  uiaPattern : Option String
  deriving DecidableEq

inductive DesktopActionDetail where
  | click
  | input (valueRef : String)
  | select (valueRef : String)
  | scroll (direction : ScrollDirection) (amount : ScrollAmount)
  | window (operation : WindowOperation)
  deriving DecidableEq

/-- An action of a run. A click of an old resolver does not say that it is for the web. -/
inductive ResolvedAction where
  | web (action : ResolvedWebAction)
  | legacyClick (target : WebElement) (graphId : String)
  | desktop (base : ResolvedDesktopActionBase) (detail : DesktopActionDetail)
  deriving DecidableEq

def ResolvedWebAction.kind : ResolvedWebAction → ActionKind
  | .navigate .. => .navigate
  | .click .. => .click
  | .input .. => .input
  | .select .. => .select
  | .scroll .. => .scroll

def DesktopActionDetail.kind : DesktopActionDetail → ActionKind
  | .click => .click
  | .input _ => .input
  | .select _ => .select
  | .scroll .. => .scroll
  | .window _ => .window

def ResolvedAction.kind : ResolvedAction → ActionKind
  | .web action => action.kind
  | .legacyClick .. => .click
  | .desktop _ detail => detail.kind

def DesktopActionResolution.text : DesktopActionResolution → String
  | .semantic => "semantic"
  | .uia => "uia"
  | .visual => "visual"
  | .coordinate => "coordinate"

def WindowOperation.text : WindowOperation → String
  | .focus => "focus"
  | .minimize => "minimize"
  | .restore => "restore"
  | .close => "close"

/-- The properties of a desktop action beside those of every desktop action and its kind. -/
def DesktopActionDetail.fields : DesktopActionDetail → List (String × JsValue)
  | .click => []
  | .input valueRef | .select valueRef => [("valueRef", .str valueRef)]
  | .scroll direction amount => [("direction", enumText Job.directions direction),
      ("amount", enumText Job.amounts amount)]
  | .window operation => [("windowOperation", .str operation.text)]

def desktopActionValue (base : ResolvedDesktopActionBase) (detail : DesktopActionDetail) :
    JsValue :=
  .obj ([("targetKind", .str "desktop"), ("actionId", .str base.actionId),
    ("graphId", .str base.graphId), ("nodeId", .str base.nodeId),
    ("resolution", .str base.resolution.text)] ++
    JsValue.optional "uiaPattern" (base.uiaPattern.map .str) ++
    ("kind", enumText Job.actionKinds detail.kind) :: detail.fields)

/-! ## Decisions -/

/-- What the permit of a desktop action is bound to. -/
structure ExecutionPermitDescriptor where
  decisionId : String
  policyId : String
  actionDigestSha256 : String
  risk : PolicyRisk
  expiresAt : Timestamp
  deriving DecidableEq

/-- A decision; an allowed one always has the reason `PolicyAllowed`. -/
inductive PolicyDecision where
  | allowed (descriptor : Option ExecutionPermitDescriptor)
  | denied (reason : String)
  deriving DecidableEq

def PolicyDecision.isAllowed : PolicyDecision → Bool
  | .allowed _ => true
  | .denied _ => false

def riskFor (action : ResolvedAction) : PolicyRisk :=
  if action.kind = .input ∨ action.kind = .select then .externalSideEffect
  else match action with
    | .desktop _ (.window .close) => .destructive
    | _ => .normal

def rank : PolicyRisk → ℕ
  | .normal => 0
  | .externalSideEffect => 1
  | .destructive => 2
  | .productionForbidden => 3

/-- A desktop action that was found by its picture or its place. -/
def isFallback : ResolvedAction → Bool
  | .desktop base _ => base.resolution = .coordinate ∨ base.resolution = .visual
  | _ => false

section Gate

variable (P : Platform)

/-- Whether a web target is at an allowed origin; an invalid URL has the origin `""`. -/
def isTargetAllowed (policy : ExecutionPolicySnapshot) : TargetRef → Bool
  | .web url => policy.allowedOrigins.contains (((P.newUrl url).map (·.origin)).getD "")
  | .desktop _ => true

def runnerPolicyActionDigestSha256 (runId : String) (action : JsValue) (decisionId : String)
    (policyId : String) (risk : PolicyRisk) (expiresAt : Timestamp) : String :=
  P.hashCanonical (.obj [("schema", .str "qualigence-runner-policy-action-digest/v1"),
    ("runId", .str runId), ("action", action), ("decisionId", .str decisionId),
    ("policyId", .str policyId), ("risk", enumText Job.risks risk), ("expiresAt", .str expiresAt)])

/-- What an allowed action is permitted with. -/
def permitDescriptor (policy : ExecutionPolicySnapshot) (job : AcceptedExecutionJob) :
    ResolvedAction → Option ExecutionPermitDescriptor
  | .desktop base detail =>
    let decisionId := "decision:" ++ job.runId ++ ":" ++ base.actionId
    let risk := riskFor (.desktop base detail)
    some {
      decisionId, policyId := policy.policyId, risk, expiresAt := policy.expiresAt
      actionDigestSha256 := runnerPolicyActionDigestSha256 P job.runId
        (desktopActionValue base detail) decisionId policy.policyId risk policy.expiresAt }
  | _ => none

/-- `DeterministicRunnerPolicyGate.authorize` at an instant. -/
def authorize (policy : ExecutionPolicySnapshot) (now : Int) (action : ResolvedAction)
    (job : AcceptedExecutionJob) : PolicyDecision :=
  match Job.parseExecutionPolicySnapshot P policy.toValue with
  | .error _ => .denied "PolicyMalformed"
  | .ok _ => match parseInstant policy.expiresAt with
    | none => .denied "PolicyMalformed"
    | some expiresAt =>
      if expiresAt ≤ now then .denied "PolicyExpired"
      else if ¬ isTargetAllowed P policy job.target then .denied "TargetOriginDenied"
      else if policy.environment = .production ∧ policy.explorationAllowed then
        .denied "ProductionExplorationDenied"
      else if ¬ policy.allowedActionKinds.contains action.kind then .denied "ActionKindDenied"
      else if policy.maximumRisk = .productionForbidden ∨
          riskFor action = .productionForbidden ∨
          rank policy.maximumRisk < rank (riskFor action) then .denied "RiskDenied"
      else if isFallback action then .denied "FallbackDenied"
      else if policy.environment = .staging ∧
          (action.kind ≠ .click ∨ riskFor action ≠ .normal) then .denied "StagingPolicyDenied"
      else .allowed (permitDescriptor P policy job action)

end Gate

/-! ## What the gate lets through -/

section Allowed

variable {P : Platform} {policy : ExecutionPolicySnapshot} {now : Int} {action : ResolvedAction}
  {job : AcceptedExecutionJob}

theorem isAllowed_iff : (authorize P policy now action job).isAllowed = true ↔
    (∃ p, Job.parseExecutionPolicySnapshot P policy.toValue = .ok p) ∧
    (∃ expiresAt, parseInstant policy.expiresAt = some expiresAt ∧ now < expiresAt) ∧
    isTargetAllowed P policy job.target = true ∧
    ¬ (policy.environment = .production ∧ policy.explorationAllowed = true) ∧
    action.kind ∈ policy.allowedActionKinds ∧
    policy.maximumRisk ≠ .productionForbidden ∧ riskFor action ≠ .productionForbidden ∧
    rank (riskFor action) ≤ rank policy.maximumRisk ∧ isFallback action = false ∧
    (policy.environment = .staging → action.kind = .click ∧ riskFor action = .normal) := by
  unfold authorize
  split
  · next e he => simp [PolicyDecision.isAllowed, he]
  next p hp =>
  split
  · next hexpires => simp [PolicyDecision.isAllowed, hexpires]
  next expiresAt hexpires =>
  have hparsed : ∃ p, Job.parseExecutionPolicySnapshot P policy.toValue = .ok p := ⟨p, hp⟩
  simp only [hparsed, hexpires, Option.some.injEq, exists_eq_left', true_and]
  split
  · next h => simp [PolicyDecision.isAllowed, Int.not_lt.mpr h]
  next htime =>
  split
  · next h => simp [PolicyDecision.isAllowed, h]
  next htarget =>
  split
  · next h => simp [PolicyDecision.isAllowed, h]
  next hproduction =>
  split
  · next h => simpa [PolicyDecision.isAllowed] using fun _ _ _ hk => absurd hk (by simpa using h)
  next hkind =>
  split
  · next h =>
    refine iff_of_false (by simp [PolicyDecision.isAllowed]) ?_
    rintro ⟨_, _, _, _, hmax, hforbidden, hrank, _⟩
    rcases h with h | h | h
    · exact hmax h
    · exact hforbidden h
    · exact absurd hrank (Nat.not_le.mpr h)
  next hrisk =>
  push Not at hrisk
  split
  · next h => simp [PolicyDecision.isAllowed, h]
  next hfallback =>
  split
  · next h =>
    refine iff_of_false (by simp [PolicyDecision.isAllowed]) ?_
    rintro ⟨_, _, _, _, _, _, _, _, hstaging⟩
    obtain ⟨hclick, hnormal⟩ := hstaging h.1
    rcases h.2 with h | h
    · exact h hclick
    · exact h hnormal
  next hstaging =>
  refine iff_of_true rfl ⟨by omega, by simpa using htarget, hproduction, by simpa using hkind,
    hrisk.1, hrisk.2.1, hrisk.2.2, by simpa using hfallback, ?_⟩
  intro hs
  by_contra hc
  refine hstaging ⟨hs, ?_⟩
  by_cases hclick : action.kind = .click
  · exact .inr fun hnormal => hc ⟨hclick, hnormal⟩
  · exact .inl hclick

end Allowed

end Qualigence.Runner
