import Mathlib.Data.List.Infix
import Qualigence.Observation.Graph
import Qualigence.Skill.Verifier

/-! # Replay of bundles

A verified bundle is executed step by step against a target. Each step looks at the target, checks
its preconditions, finds the one node that it acts on, acts, and checks its checkpoint on what the
target looks like afterwards. What the target shows is validated before anything is read off it.
-/

namespace Qualigence.Skill

open Foundation Protocol Observation

/-- What a replay uses of its environment beside the texts: the validator of whatever the target
shows, which is given the query keys that it lets pass. -/
structure ReplayLibrary extends ObservationLibrary where
  validateCandidate : JsValue → List String → Except ObservationThrown ObservationGraphV1

/-- The action that a step is resolved to. -/
structure ResolvedReplayAction where
  step : SkillStep
  node : Option ObservationNodeV1
  deriving DecidableEq

section Graph

variable (L : ReplayLibrary)

/-! ## Texts -/

/-- The characters of a normalized text. -/
def normalize (value : String) : List Char := (normalizeText L.toObservationLibrary value).toList

def nodeVisibleText (node : ObservationNodeV1) : String :=
  if node.sensitivity = .secret then node.name.getD ""
  else match node.state.find? fun entry => entry.1 = "text" with
    | some (_, .str text) => text
    | _ => node.value.getD (node.name.getD "")

/-- A target is matched by its role and its name, or by the words of its purpose. -/
def matchesTarget (target : SemanticTarget) (node : ObservationNodeV1) : Bool :=
  if ∃ role ∈ target.role, normalize L node.role ≠ normalize L role then false
  else match target.name with
    | some name => node.name.any fun n => normalize L n = normalize L name
    | none =>
      let tokens := (Mission.splitSpaces (normalize L target.purpose) []).filter (· ≠ [])
      let haystack := normalize L
        (node.role ++ " " ++ node.name.getD "" ++ " " ++ nodeVisibleText node)
      tokens.all fun token => token <:+: haystack

def matching (target : SemanticTarget) (graph : ObservationGraphV1) : List ObservationNodeV1 :=
  graph.nodes.filter (matchesTarget L target)

/-! ## Assertions -/

def requireWebV1Semantics (graph : ObservationGraphV1) : Except ObservationThrown String := do
  let extension ← requireGraphExtension graph "web/v1"
  return L.toText (JsValue.field "pathname" extension.payload)

def invalidClaims {α : Type} : Except ObservationThrown α :=
  .error (.observation .observationSchemaInvalid)

def claimText : JsValue → Except ObservationThrown String
  | .str claim => if claim = "" ∨ L.normalizeNFC claim ≠ claim then invalidClaims else .ok claim
  | _ => invalidClaims

def skillReplayClaims (extension : VersionedExtension) : Except ObservationThrown (List String) :=
  if extension.type ≠ "skill-replay/v1" then invalidClaims
  else match JsValue.field "claims" extension.payload with
    | .undefined => .ok []
    | .arr claims => claims.mapM (claimText L)
    | _ => invalidClaims

def satisfiedClaimIds (graph : ObservationGraphV1) : Except ObservationThrown (List String) :=
  match findGraphExtension graph "skill-replay/v1" with
  | some extension => skillReplayClaims L extension
  | none =>
    if graph.extensions.any fun extension => "skill-replay/v".toList.isPrefixOf extension.1.toList
    then .error (.observation .extensionVersionUnsupported)
    else .ok []

def assertionHolds (graph : ObservationGraphV1) : SkillAssertion → Except ObservationThrown Bool
  | .urlPath path => do
    let pathname ← requireWebV1Semantics L graph
    return pathname = path
  | .claimSatisfied claimId => do
    let claims ← satisfiedClaimIds L graph
    return claims.contains claimId
  | .nodePresent target => .ok ((matching L target graph).length = 1)
  | .nodeText target expected =>
    match matching L target graph with
    | [node] => .ok (normalize L expected <:+: normalize L (nodeVisibleText node))
    | _ => .ok false

/-- Assertions are checked in order, up to the first that does not hold. -/
def assertionsHold (graph : ObservationGraphV1) :
    List SkillAssertion → Except ObservationThrown Bool
  | [] => .ok true
  | assertion :: assertions => do
    let holds ← assertionHolds L graph assertion
    if holds then assertionsHold graph assertions else return false

/-- `none` when no node or more than one node matches. -/
def resolveAction (step : SkillStep) (graph : ObservationGraphV1) : Option ResolvedReplayAction :=
  let onNode (target : SemanticTarget) : Option ResolvedReplayAction :=
    match matching L target graph with
    | [node] => some ⟨step, some node⟩
    | _ => none
  match step.intent with
  | .navigate _ => some ⟨step, none⟩
  | .click target => onNode target
  | .input target _ => onNode target

/-! ## Validation -/

def webQueryKeysPresentOnCandidate (candidate : JsValue) : List String :=
  let extensions := JsValue.field "extensions" (recordFields candidate)
  let web := JsValue.field "web/v1" (recordFields extensions)
  let payload := JsValue.field "payload" (recordFields web)
  (recordFields (JsValue.field "query" (recordFields payload))).map (·.1)

/-- A graph of a web target has to carry the web extension. -/
def validateReplayObservationGraph (candidate : JsValue) :
    Except ObservationThrown ObservationGraphV1 := do
  let validated ← L.validateCandidate candidate
    (webQueryKeysPresentOnCandidate candidate)
  if validated.target.kind = .web then
    let _ ← requireWebV1Semantics L validated
    return validated
  else return validated

end Graph

/-! ## The controller -/

/-- The calls of a replay to the signer and to the target. -/
inductive ReplayOp where
  | verify (bundle : SignedSkillBundle) (scope : SkillVerificationScope)
  | capture
  | execute (action : ResolvedReplayAction)

def ReplayOp.Reply : ReplayOp → Type
  | verify .. => SkillSignatureVerification
  | capture => JsValue
  | execute _ => Unit

abbrev replaySignature : Signature := ⟨ReplayOp, ReplayOp.Reply⟩

abbrev Replaying (α : Type) := Program replaySignature ObservationThrown α

abbrev ReplayLog := List (Call replaySignature ObservationThrown)

namespace SkillReplayController

variable (L : ReplayLibrary)

def call (op : ReplayOp) : Replaying op.Reply := Program.perform (S := replaySignature) op

def raised {α : Type} : Except ObservationThrown α → Replaying α
  | .ok a => .pure a
  | .error e => .throw e

def captureReplayGraph : Replaying ObservationGraphV1 := do
  let candidate : JsValue ← call .capture
  raised (validateReplayObservationGraph L candidate)

def planDiverged : SkillReplayResult := .blocked "PlanDiverged"

/-- The checkpoint on a new look at the target. -/
def checkpointHolds (step : SkillStep) : Replaying Bool := do
  let graph : ObservationGraphV1 ← captureReplayGraph L
  raised (assertionsHold L graph step.checkpoint)

/-- What follows the execution: a step may look once more before it gives up. -/
def checkStep (step : SkillStep) : Replaying SkillReplayResult := do
  let holds : Bool ← checkpointHolds L step
  if holds then return .passed
  else match step.recovery with
    | .stop => return planDiverged
    | .reobserve =>
      let recovered : Bool ← checkpointHolds L step
      return if recovered then .passed else planDiverged

def runStep (step : SkillStep) : Replaying SkillReplayResult := do
  let observation : ObservationGraphV1 ← captureReplayGraph L
  let ready : Bool ← raised (assertionsHold L observation step.preconditions)
  if ready then
    match resolveAction L step observation with
    | none => return planDiverged
    | some action =>
      let _ : Unit ← call (.execute action)
      checkStep L step
  else return planDiverged

def runSteps : List SkillStep → Replaying SkillReplayResult
  | [] => pure .passed
  | step :: steps => do
    let result : SkillReplayResult ← runStep L step
    match result with
    | .passed => runSteps steps
    | .blocked errorCode => return .blocked errorCode

/-- Errors of observations block the replay, others end it. -/
def onThrown : ObservationThrown → Replaying SkillReplayResult
  | .observation code => pure (.blocked code.text)
  | .other reason => .throw (.other reason)

/-- `run` -/
def replay (bundle : SignedSkillBundle) (scope : SkillVerificationScope) :
    Replaying SkillReplayResult := do
  let verification : SkillSignatureVerification ← call (.verify bundle scope)
  match verification with
  | .invalid code _ => return .blocked code.text
  | .valid => (runSteps L bundle.payload.steps.toList).tryCatch onThrown

end SkillReplayController

end Qualigence.Skill
