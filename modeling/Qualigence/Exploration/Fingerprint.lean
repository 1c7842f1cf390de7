import Qualigence.Observation.Graph

/-! # Fingerprints and prompt views

Exploration recognises a state of the target by the fingerprint of its observation graph. The
fingerprint knows the nodes by what they show and by how they are related to each other, and not by
their identifiers: the identity of a node starts from what the node shows and takes in the
identities of its neighbours, round by round. A prompt shows the graph without the values and the
texts of secret nodes.
-/

namespace Qualigence.Exploration

open Protocol Observation

/-- Privacy-preserving fields of the web extension. -/
structure WebV1Semantics where
  origin : String
  pathname : String
  title : String
  viewport : JsValue
  queryKeys : List String
  deriving DecidableEq

structure ObservationNodePromptView where
  id : String
  role : String
  name : Option String
  value : Option String
  state : List (String × StateValue)
  relations : List ObservationRelationV1
  source : ObservationNodeSource
  sensitivity : ObservationSensitivity
  evidenceRefs : List String
  deriving DecidableEq

structure ObservationGraphPromptView where
  graphId : String
  target : ObservationTarget
  capturedAt : String
  rootNodeIds : List String
  evidenceRefs : List String
  web : Option WebV1Semantics
  nodes : List ObservationNodePromptView
  deriving DecidableEq

section Consumer

variable (P : Platform) (L : ObservationLibrary)

/-! ## Sorting -/

/-- Sort by texts, in the order of their normalized forms. -/
def sortBy {α : Type} (key : α → String) (items : List α) : List α :=
  items.insertionSort fun a b => utf16Le (L.normalizeNFC (key a)) (L.normalizeNFC (key b))

def sortStrings (values : List String) : List String := sortBy L id values

/-! ## The web extension -/

def queryKeysOf : JsValue → Except ObservationThrown (List String)
  | .undefined | .null => .error (.other "TypeError")
  | query => .ok ((recordFields query).map (·.1))

def webSemanticsFromExtension (extension : VersionedExtension) :
    Except ObservationThrown WebV1Semantics := do
  let keys ← queryKeysOf (JsValue.field "query" extension.payload)
  return {
    origin := L.toText (JsValue.field "origin" extension.payload)
    pathname := L.toText (JsValue.field "pathname" extension.payload)
    title := L.toText (JsValue.field "title" extension.payload)
    viewport := JsValue.field "viewport" extension.payload
    queryKeys := sortStrings L keys }

def requireWebV1Semantics (graph : ObservationGraphV1) :
    Except ObservationThrown WebV1Semantics := do
  let extension ← requireGraphExtension graph "web/v1"
  webSemanticsFromExtension L extension

def findWebV1Semantics (graph : ObservationGraphV1) :
    Except ObservationThrown (Option WebV1Semantics) :=
  match findGraphExtension graph "web/v1" with
  | none => .ok none
  | some extension => (webSemanticsFromExtension L extension).map some

def webQueryKeysPresentOnGraph (graph : ObservationGraphV1) : List String :=
  match findGraphExtension graph "web/v1" with
  | none => []
  | some extension => (recordFields (JsValue.field "query" extension.payload)).map (·.1)

def validateConsumerObservationGraph (graph : ObservationGraphV1) :
    Except ObservationThrown ObservationGraphV1 :=
  validateObservationGraphV1 L (webQueryKeysPresentOnGraph graph) graph

/-! ## States -/

/-- The properties that an assignment to an empty object makes its own. -/
def assigned (entries : List (String × StateValue)) : List (String × StateValue) :=
  entries.filter fun entry => entry.1 ≠ "__proto__"

def normalizeValue : StateValue → StateValue
  | .str text => .str (normalizeText L text)
  | value => value

def normalizedState (state : List (String × StateValue)) : List (String × StateValue) :=
  assigned ((sortBy L (·.1) state).map fun entry => (entry.1, normalizeValue L entry.2))

def redactValue : StateValue → StateValue
  | .str _ => .str "[redacted]"
  | value => value

def redactStringState (state : List (String × StateValue)) : List (String × StateValue) :=
  assigned (state.map fun entry => (entry.1, redactValue entry.2))

/-! ## Prompt views -/

def relationKey (relation : ObservationRelationV1) : String :=
  observationRelationSemanticKey relation

def nodePromptView (node : ObservationNodeV1) : ObservationNodePromptView where
  id := node.id
  role := node.role
  name := node.name
  value := if node.sensitivity = .secret then none else node.value
  state := if node.sensitivity = .secret then redactStringState node.state else node.state
  relations := sortBy L relationKey node.relations
  source := node.source
  sensitivity := node.sensitivity
  evidenceRefs := sortStrings L node.evidenceRefs

def observationGraphPromptView (graph : ObservationGraphV1) :
    Except ObservationThrown ObservationGraphPromptView := do
  let validated ← validateConsumerObservationGraph L graph
  let web ← findWebV1Semantics L validated
  return {
    graphId := validated.graphId
    target := validated.target
    capturedAt := validated.capturedAt
    rootNodeIds := sortStrings L validated.rootNodeIds
    evidenceRefs := sortStrings L validated.evidenceRefs
    web := web
    nodes := (sortBy L (·.id) validated.nodes).map (nodePromptView L) }

/-! ## Fingerprints -/

/-- `canonicalPayloadHash` of a value other than `undefined`. -/
def payloadHash (value : JsValue) : String := (canonicalPayloadHash P value).getD ""

/-- `new Map(entries)` -/
def mapOf (entries : List (String × String)) (key : String) : Option String :=
  (entries.reverse.find? fun entry => entry.1 = key).map (·.2)

def stateObject (state : List (String × StateValue)) : JsValue :=
  .obj (state.map fun entry => (entry.1, entry.2.toValue))

def nodeBaseFields (node : ObservationNodeV1) : List (String × JsValue) :=
  [("role", .str (normalizeText L node.role)),
    ("name", .str (normalizeText L (node.name.getD "")))] ++
  JsValue.optional "value" (if node.sensitivity = .secret then none
    else node.value.map fun value => .str (normalizeText L value)) ++
  [("state", stateObject (if node.sensitivity = .secret then []
      else normalizedState L node.state)),
    ("source", .obj [("adapterId", .str node.source.adapterId),
      ("sourceKind", .str node.source.sourceKind)]),
    ("sensitivity", .str node.sensitivity.text)]

def nodeBaseFingerprintView (node : ObservationNodeV1) : JsValue := .obj (nodeBaseFields L node)

/-- A relation with the identity of the node that it leads to. -/
structure ObservationRelationFingerprintView where
  type : ObservationRelationType
  target : String

def relationFingerprintView (identities : String → Option String)
    (relation : ObservationRelationV1) : ObservationRelationFingerprintView where
  type := relation.type
  target := (identities relation.targetNodeId).getD relation.targetNodeId

def ObservationRelationFingerprintView.key (view : ObservationRelationFingerprintView) : String :=
  view.type.text ++ "\x00" ++ view.target

def ObservationRelationFingerprintView.toValue (view : ObservationRelationFingerprintView) :
    JsValue :=
  .obj [("type", .str view.type.text), ("target", .str view.target)]

def nodeFingerprintView (identities : String → Option String) (node : ObservationNodeV1) :
    JsValue :=
  .obj (nodeBaseFields L node ++ [("relations", .arr ((sortBy L
    ObservationRelationFingerprintView.key
    (node.relations.map (relationFingerprintView identities))).map
      ObservationRelationFingerprintView.toValue))])

/-- The identities of the nodes after a number of rounds. -/
def identitiesAfter (nodes : List ObservationNodeV1) : ℕ → String → Option String
  | 0 => mapOf (nodes.map fun node => (node.id, payloadHash P (nodeBaseFingerprintView L node)))
  | depth + 1 => mapOf ((sortBy L (·.id) nodes).map fun node =>
      (node.id, payloadHash P (nodeFingerprintView L (identitiesAfter nodes depth) node)))

def stableNodeIdentityById (nodes : List ObservationNodeV1) : String → Option String :=
  identitiesAfter P L nodes nodes.length

def targetValue (target : ObservationTarget) : JsValue :=
  .obj [("kind", .str (match target.kind with
    | .web => "web"
    | .app => "app")), ("targetId", .str target.targetId)]

/-- The value that the fingerprint of a valid graph is the hash of. -/
def fingerprintView (web : WebV1Semantics) (graph : ObservationGraphV1) : JsValue :=
  let nodeIdentityById := stableNodeIdentityById P L graph.nodes
  let nodes := sortBy L (payloadHash P) (graph.nodes.map (nodeFingerprintView L nodeIdentityById))
  let rootNodes := sortStrings L (graph.rootNodeIds.map fun id => (nodeIdentityById id).getD id)
  .obj [("web", .obj [("origin", .str web.origin), ("pathname", .str web.pathname),
      ("title", .str (normalizeText L web.title)), ("queryKeys", .arr (web.queryKeys.map .str))]),
    ("target", targetValue graph.target),
    ("rootNodes", .arr (rootNodes.map .str)),
    ("nodes", .arr nodes)]

def fingerprintObservationGraphV1 (graph : ObservationGraphV1) :
    Except ObservationThrown String := do
  let validated ← validateConsumerObservationGraph L graph
  let web ← requireWebV1Semantics L validated
  return payloadHash P (fingerprintView P L web validated)

end Consumer

end Qualigence.Exploration
