import Qualigence.Desktop.Permit

/-! # Desktop actions and their digests

A permit request and an execution request carry a desktop action. The digest that binds a
permit to the action is taken of a canonical JSON text of the action, the authorization and the
session.
-/

namespace Qualigence.Desktop

open Protocol (utf8Encode quote joinComma)

inductive ScrollDirection where
  | up
  | down
  | left
  | right
  deriving DecidableEq

inductive ScrollAmount where
  | page
  | small
  deriving DecidableEq

inductive WindowOperation where
  | focus
  | minimize
  | restore
  | close
  deriving DecidableEq

inductive DesktopActionKind where
  | click
  | input (valueRef : String)
  | select (valueRef : String)
  | scroll (direction : ScrollDirection) (amount : ScrollAmount)
  | window (windowOperation : WindowOperation)
  deriving DecidableEq

inductive DesktopResolution where
  | semantic
  | uia
  | visual
  | coordinate
  deriving DecidableEq

structure ResolvedDesktopAction where
  kind : DesktopActionKind
  actionId : String
  graphId : String
  nodeId : String
  resolution : DesktopResolution
  uiaPattern : Option String
  deriving DecidableEq

structure DesktopValueBinding where
  valueRef : String
  valueSha256 : String
  valueByteLength : ℕ
  deriving DecidableEq

structure LocalPermitAuthorization where
  decisionId : String
  policyId : String
  actionDigestSha256 : String
  risk : Risk
  expiresAt : String
  nonceBase64 : String
  valueBinding : Option DesktopValueBinding
  deriving DecidableEq

/-! ## Risk of an action -/

def classifyDesktopAction (action : ResolvedDesktopAction) : Risk :=
  match action.kind with
  | .click => .normal
  | .scroll _ _ => .normal
  | .input _ => .externalSideEffect
  | .select _ => .externalSideEffect
  | .window .close => .destructive
  | .window _ => .normal

def riskRank : Risk → ℕ
  | .normal => 0
  | .externalSideEffect => 1
  | .destructive => 2
  | .productionForbidden => 3

def authorizationRiskCoversAction (action : ResolvedDesktopAction) (authorizationRisk : Risk) :
    Bool :=
  if authorizationRisk = .productionForbidden then true
  else decide (riskRank authorizationRisk ≥ riskRank (classifyDesktopAction action))

def actionPatternIsSupported (action : ResolvedDesktopAction) : Bool :=
  match action.uiaPattern with
  | none => true
  | some pattern => match action.kind with
    | .click => decide (pattern = "Invoke")
    | .input _ => decide (pattern = "Value")
    | .select _ => decide (pattern = "Selection" ∨ pattern = "SelectionItem")
    | .scroll _ _ => decide (pattern = "Scroll")
    | .window _ => decide (pattern = "Window")

/-! ## Canonical JSON -/

/-- The JSON values that are digested. -/
inductive JsonValue where
  | string (s : String)
  | number (n : ℕ)
  | object (fields : List (String × JsonValue))

/-- `entries.sort()`, by code points. -/
def sortEntries (entries : List (List Char)) : List (List Char) :=
  entries.insertionSort fun a b => a.map Char.toNat ≤ b.map Char.toNat

mutual
def canonicalizeJson : JsonValue → List Char
  | .string s => quote s
  | .number n => (toString n).toList
  | .object fields => '\x7b' :: joinComma (sortEntries (canonicalizeFields fields)) ++ ['\x7d']

def canonicalizeFields : List (String × JsonValue) → List (List Char)
  | [] => []
  | (key, value) :: fields =>
    (quote key ++ ':' :: canonicalizeJson value) :: canonicalizeFields fields
end

def Risk.toJson : Risk → JsonValue
  | .normal => .string "Normal"
  | .externalSideEffect => .string "ExternalSideEffect"
  | .destructive => .string "Destructive"
  | .productionForbidden => .string "ProductionForbidden"

def ScrollDirection.toJson : ScrollDirection → JsonValue
  | .up => .string "up"
  | .down => .string "down"
  | .left => .string "left"
  | .right => .string "right"

def ScrollAmount.toJson : ScrollAmount → JsonValue
  | .page => .string "page"
  | .small => .string "small"

def WindowOperation.toJson : WindowOperation → JsonValue
  | .focus => .string "focus"
  | .minimize => .string "minimize"
  | .restore => .string "restore"
  | .close => .string "close"

def DesktopResolution.toJson : DesktopResolution → JsonValue
  | .semantic => .string "semantic"
  | .uia => .string "uia"
  | .visual => .string "visual"
  | .coordinate => .string "coordinate"

def DesktopActionKind.fields : DesktopActionKind → List (String × JsonValue)
  | .click => [("kind", .string "click")]
  | .input valueRef => [("kind", .string "input"), ("valueRef", .string valueRef)]
  | .select valueRef => [("kind", .string "select"), ("valueRef", .string valueRef)]
  | .scroll direction amount =>
    [("kind", .string "scroll"), ("direction", direction.toJson), ("amount", amount.toJson)]
  | .window windowOperation =>
    [("kind", .string "window"), ("windowOperation", windowOperation.toJson)]

def ResolvedDesktopAction.toJson (action : ResolvedDesktopAction) : JsonValue :=
  .object ([("targetKind", .string "desktop")] ++ action.kind.fields ++
    [("actionId", .string action.actionId), ("graphId", .string action.graphId),
      ("nodeId", .string action.nodeId), ("resolution", action.resolution.toJson)] ++
    (action.uiaPattern.map fun pattern => ("uiaPattern", .string pattern)).toList)

def DesktopValueBinding.toJson (binding : DesktopValueBinding) : JsonValue :=
  .object [("valueRef", .string binding.valueRef), ("valueSha256", .string binding.valueSha256),
    ("valueByteLength", .number binding.valueByteLength)]

/-- What the digest is taken of. -/
def desktopActionDigestText (sessionId runId : String) (action : ResolvedDesktopAction)
    (decisionId policyId : String) (risk : Risk) (expiresAt nonceBase64 : String)
    (valueBinding : Option DesktopValueBinding) : List Char :=
  canonicalizeJson (.object
    ([("schema", .string "qualigence-desktop-action-digest/v1"), ("sessionId", .string sessionId),
      ("runId", .string runId), ("action", action.toJson), ("decisionId", .string decisionId),
      ("policyId", .string policyId), ("risk", risk.toJson), ("expiresAt", .string expiresAt),
      ("nonceBase64", .string nonceBase64)] ++
    (valueBinding.map fun binding => ("valueBinding", binding.toJson)).toList))

def desktopActionDigestSha256 (E : Environment) (sessionId runId : String)
    (action : ResolvedDesktopAction) (decisionId policyId : String) (risk : Risk)
    (expiresAt nonceBase64 : String) (valueBinding : Option DesktopValueBinding) : String :=
  E.sha256Hex (utf8Encode (desktopActionDigestText sessionId runId action decisionId policyId risk
    expiresAt nonceBase64 valueBinding))

end Qualigence.Desktop
