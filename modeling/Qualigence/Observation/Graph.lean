import Mathlib.Data.Rat.Defs
import Mathlib.Algebra.Order.Ring.Rat
import Mathlib.Data.List.Nodup
import Qualigence.Foundation.Program
import Qualigence.Mission.Plan

/-! # Observation graphs

What a target looked like: nodes with their texts, their states and their relations to each other.
A graph is validated before anything is read off it: identifiers are unique, also up to
normalization, no reference dangles, and a secret node shows no value.
-/

namespace Qualigence.Observation

open Protocol

/-! ## The contract -/

inductive ObservationErrorCode where
  | observationSchemaInvalid
  | danglingNodeReference
  | evidenceReferenceInvalid
  | extensionVersionUnsupported
  | sourceAssetCorrupted
  | projectionUnsupported
  | skillRecompileFailed
  | migrationSourceChanged
  deriving DecidableEq

def ObservationErrorCode.text : ObservationErrorCode → String
  | .observationSchemaInvalid => "ObservationSchemaInvalid"
  | .danglingNodeReference => "DanglingNodeReference"
  | .evidenceReferenceInvalid => "EvidenceReferenceInvalid"
  | .extensionVersionUnsupported => "ExtensionVersionUnsupported"
  | .sourceAssetCorrupted => "SourceAssetCorrupted"
  | .projectionUnsupported => "ProjectionUnsupported"
  | .skillRecompileFailed => "SkillRecompileFailed"
  | .migrationSourceChanged => "MigrationSourceChanged"

/-- What is thrown about an observation: an `ObservationError`, or anything else. -/
inductive ObservationThrown where
  | observation (code : ObservationErrorCode)
  | other (reason : String)
  deriving DecidableEq

structure VersionedExtension where
  type : String
  version : String
  setSemantics : Option (List String)
  payload : List (String × JsValue)
  deriving DecidableEq

abbrev Extensions := List (String × VersionedExtension)

inductive ObservationTargetKind where
  | web
  | app
  deriving DecidableEq

structure ObservationTarget where
  kind : ObservationTargetKind
  targetId : String
  deriving DecidableEq

inductive ObservationRelationType where
  | child
  | labelledBy
  | describedBy
  | controls
  | owns
  | focuses
  deriving DecidableEq

def ObservationRelationType.text : ObservationRelationType → String
  | .child => "child"
  | .labelledBy => "labelled_by"
  | .describedBy => "described_by"
  | .controls => "controls"
  | .owns => "owns"
  | .focuses => "focuses"

structure ObservationRelationV1 where
  type : ObservationRelationType
  targetNodeId : String
  deriving DecidableEq

structure ObservationNodeSource where
  adapterId : String
  sourceKind : String
  deriving DecidableEq

structure ObservationBounds where
  x : ℚ
  y : ℚ
  width : ℚ
  height : ℚ
  deriving DecidableEq

inductive ObservationSensitivity where
  | visible
  | internal
  | sensitive
  | secret
  deriving DecidableEq

def ObservationSensitivity.text : ObservationSensitivity → String
  | .visible => "public"
  | .internal => "internal"
  | .sensitive => "sensitive"
  | .secret => "secret"

/-- A value of a state: a boolean, a text, or a number as it is written. -/
inductive StateValue where
  | bool (b : Bool)
  | str (s : String)
  | int (n : ℤ)
  | real (text : String)
  deriving DecidableEq

def StateValue.toValue : StateValue → JsValue
  | .bool b => .bool b
  | .str s => .str s
  | .int n => .int n
  | .real text => .real text

structure ObservationNodeV1 where
  id : String
  role : String
  name : Option String
  value : Option String
  state : List (String × StateValue)
  bounds : Option ObservationBounds
  relations : List ObservationRelationV1
  source : ObservationNodeSource
  confidence : ℚ
  sensitivity : ObservationSensitivity
  extensions : Extensions
  evidenceRefs : List String
  deriving DecidableEq

/-- A graph of the one schema there is. -/
@[ext]
structure ObservationGraphV1 where
  graphId : String
  target : ObservationTarget
  capturedAt : String
  rootNodeIds : List String
  nodes : List ObservationNodeV1
  evidenceRefs : List String
  extensions : Extensions
  deriving DecidableEq

/-! ## Texts -/

/-- What is used of the environment: case conversion, normalization and conversion of texts, and the
validator of extensions, which is given where they are, the query keys that it lets pass and whether
they belong to the graph. -/
structure ObservationLibrary where
  toLowerCase : String → String
  normalizeNFC : String → String
  toText : JsValue → String
  validateExtensions : String → Extensions → List String → Bool → Except ObservationThrown Unit

/-- Every run of spaces becomes one space; `inRun` says whether the character before is one. -/
def collapseSpaces : (inRun : Bool) → List Char → List Char
  | _, [] => []
  | inRun, c :: cs =>
    if isJsSpace c then (if inRun then [] else [' ']) ++ collapseSpaces true cs
    else c :: collapseSpaces false cs

section Library

variable (L : ObservationLibrary)

/-- `value.trim().toLowerCase().replace(/\s+/g, " ")` -/
def normalizeText (value : String) : String :=
  String.ofList (collapseSpaces false
    (L.toLowerCase (String.ofList (Mission.trimChars value.toList))).toList)

/-! ## Extensions of graphs -/

def findGraphExtension (graph : ObservationGraphV1) (key : String) : Option VersionedExtension :=
  (graph.extensions.find? fun extension => extension.1 = key).map (·.2)

def requireGraphExtension (graph : ObservationGraphV1) (key : String) :
    Except ObservationThrown VersionedExtension :=
  match findGraphExtension graph key with
  | some extension => .ok extension
  | none => .error (.observation .extensionVersionUnsupported)

/-- The properties of a value that is an object. -/
def recordFields : JsValue → List (String × JsValue)
  | .obj fields => fields
  | _ => []

/-! ## Validation -/

def require (condition : Prop) [Decidable condition] (code : ObservationErrorCode) :
    Except ObservationThrown Unit :=
  if condition then .ok () else .error (.observation code)

/-- A secret value is acceptable only when it is fully masked or empty. -/
def isMasked (value : String) : Bool := value.toList.all fun c => c = '•' ∨ c = '*'

/-- Texts with one normalized form are the same text. -/
def UniqueCanonicalKeys (keys : List String) : Prop :=
  ∀ key ∈ keys, ∀ key' ∈ keys, L.normalizeNFC key = L.normalizeNFC key' → key = key'

instance (keys : List String) : Decidable (UniqueCanonicalKeys L keys) :=
  inferInstanceAs (Decidable (∀ _ ∈ _, ∀ _ ∈ _, _))

/-- `assertUniqueCanonicalStringKeys` -/
def assertUniqueCanonicalStringKeys (values : List String) : Except ObservationThrown Unit := do
  require (∀ value ∈ values, value ≠ "") .observationSchemaInvalid
  require (UniqueCanonicalKeys L values) .observationSchemaInvalid

def observationRelationSemanticKey (relation : ObservationRelationV1) : String :=
  relation.type.text ++ "\x00" ++ relation.targetNodeId

def validateNode (allowedWebQueryKeys : List String) (node : ObservationNodeV1) :
    Except ObservationThrown Unit := do
  require (node.id ≠ "") .observationSchemaInvalid
  require (node.role ≠ "") .observationSchemaInvalid
  require (node.sensitivity = .secret → ∀ value ∈ node.value, isMasked value)
    .observationSchemaInvalid
  require (0 ≤ node.confidence ∧ node.confidence ≤ 1) .observationSchemaInvalid
  require (∀ bounds ∈ node.bounds, 0 ≤ bounds.width ∧ 0 ≤ bounds.height) .observationSchemaInvalid
  require (∀ relation ∈ node.relations, relation.targetNodeId ≠ "") .observationSchemaInvalid
  require (node.source.adapterId ≠ "") .observationSchemaInvalid
  require (node.source.sourceKind ≠ "") .observationSchemaInvalid
  L.validateExtensions ("node " ++ node.id) node.extensions allowedWebQueryKeys false

/-- The nodes one after the other, with the identifiers that were seen before. -/
def validateNodes (allowedWebQueryKeys : List String) :
    List String → List ObservationNodeV1 → Except ObservationThrown Unit
  | _, [] => .ok ()
  | seen, node :: nodes => do
    validateNode L allowedWebQueryKeys node
    require (node.id ∉ seen) .observationSchemaInvalid
    require (∀ id ∈ seen, L.normalizeNFC id = L.normalizeNFC node.id → id = node.id)
      .observationSchemaInvalid
    validateNodes allowedWebQueryKeys (seen ++ [node.id]) nodes

def ObservationGraphV1.nodeIds (graph : ObservationGraphV1) : List String := graph.nodes.map (·.id)

/-- The relations of a node: their keys, and where they lead. -/
def validateRelations (nodeIds : List String) (node : ObservationNodeV1) :
    Except ObservationThrown Unit := do
  require (UniqueCanonicalKeys L (node.relations.map observationRelationSemanticKey))
    .observationSchemaInvalid
  require (∀ relation ∈ node.relations, relation.targetNodeId ∈ nodeIds) .danglingNodeReference

/-- The graph itself, when it is valid. -/
def validateObservationGraphV1 (allowedWebQueryKeys : List String) (graph : ObservationGraphV1) :
    Except ObservationThrown ObservationGraphV1 := do
  require (graph.graphId ≠ "") .observationSchemaInvalid
  require (graph.target.targetId ≠ "") .observationSchemaInvalid
  require (graph.capturedAt ≠ "") .observationSchemaInvalid
  L.validateExtensions "graph" graph.extensions allowedWebQueryKeys true
  assertUniqueCanonicalStringKeys L graph.rootNodeIds
  assertUniqueCanonicalStringKeys L graph.evidenceRefs
  validateNodes L allowedWebQueryKeys [] graph.nodes
  require (graph.rootNodeIds ≠ []) .observationSchemaInvalid
  require (∀ rootId ∈ graph.rootNodeIds, rootId ∈ graph.nodeIds) .danglingNodeReference
  graph.nodes.forM (validateRelations L graph.nodeIds)
  require (∀ ref ∈ graph.evidenceRefs, ref ≠ "") .observationSchemaInvalid
  require (∀ node ∈ graph.nodes, ∀ ref ∈ node.evidenceRefs, ref ≠ "") .observationSchemaInvalid
  return graph

/-! ## What validation makes sure of -/

theorem require_ok {condition : Prop} [Decidable condition] {code : ObservationErrorCode} {u : Unit}
    (h : require condition code = .ok u) : condition := by
  unfold require at h
  split at h
  · assumption
  · cases h

/-- Identifiers are unique, and every reference leads to a node. -/
structure ObservationGraphV1.WellFormed (graph : ObservationGraphV1) : Prop where
  nodup : graph.nodeIds.Nodup
  roots : ∀ rootId ∈ graph.rootNodeIds, rootId ∈ graph.nodeIds
  relations : ∀ node ∈ graph.nodes, ∀ relation ∈ node.relations,
    relation.targetNodeId ∈ graph.nodeIds

variable {L}

theorem nodup_of_validateNodes {keys seen : List String} {nodes : List ObservationNodeV1} {u : Unit}
    (h : validateNodes L keys seen nodes = .ok u) :
    (nodes.map (·.id)).Nodup ∧ ∀ id ∈ seen, id ∉ nodes.map (·.id) := by
  induction nodes generalizing seen with
  | nil => exact ⟨List.nodup_nil, fun _ _ => List.not_mem_nil⟩
  | cons node nodes ih =>
    rw [validateNodes] at h
    obtain ⟨_, -, h⟩ := Foundation.bind_eq_ok.mp h
    obtain ⟨_, hseen, h⟩ := Foundation.bind_eq_ok.mp h
    obtain ⟨_, -, h⟩ := Foundation.bind_eq_ok.mp h
    obtain ⟨hnodup, hfresh⟩ := ih h
    have hnode := hfresh node.id (List.mem_append_right seen List.mem_cons_self)
    refine ⟨List.nodup_cons.mpr ⟨hnode, hnodup⟩, fun id hid => ?_⟩
    rw [List.map_cons, List.mem_cons, not_or]
    refine ⟨?_, hfresh id (List.mem_append_left _ hid)⟩
    rintro rfl
    exact require_ok hseen hid

theorem forM_ok {α : Type} {f : α → Except ObservationThrown Unit} {xs : List α} {u : Unit}
    (h : xs.forM f = .ok u) : ∀ x ∈ xs, f x = .ok () := by
  induction xs with
  | nil => exact fun x hx => absurd hx List.not_mem_nil
  | cons x xs ih =>
    obtain ⟨_, hx, hxs⟩ := Foundation.bind_eq_ok.mp h
    intro y hy
    rcases List.mem_cons.mp hy with rfl | hy
    · exact hx
    · exact ih hxs y hy

/-- A graph that is valid is returned as it is. -/
theorem wellFormed_of_validate {keys : List String} {graph validated : ObservationGraphV1}
    (h : validateObservationGraphV1 L keys graph = .ok validated) :
    validated = graph ∧ graph.WellFormed := by
  unfold validateObservationGraphV1 at h
  obtain ⟨_, -, h⟩ := Foundation.bind_eq_ok.mp h
  obtain ⟨_, -, h⟩ := Foundation.bind_eq_ok.mp h
  obtain ⟨_, -, h⟩ := Foundation.bind_eq_ok.mp h
  obtain ⟨_, -, h⟩ := Foundation.bind_eq_ok.mp h
  obtain ⟨_, -, h⟩ := Foundation.bind_eq_ok.mp h
  obtain ⟨_, -, h⟩ := Foundation.bind_eq_ok.mp h
  obtain ⟨_, hnodes, h⟩ := Foundation.bind_eq_ok.mp h
  obtain ⟨_, -, h⟩ := Foundation.bind_eq_ok.mp h
  obtain ⟨_, hroots, h⟩ := Foundation.bind_eq_ok.mp h
  obtain ⟨_, hrelations, h⟩ := Foundation.bind_eq_ok.mp h
  obtain ⟨_, -, h⟩ := Foundation.bind_eq_ok.mp h
  obtain ⟨_, -, h⟩ := Foundation.bind_eq_ok.mp h
  refine ⟨(Except.ok.inj h).symm, (nodup_of_validateNodes hnodes).1, require_ok hroots, ?_⟩
  intro node hnode
  obtain ⟨_, -, hdangling⟩ := Foundation.bind_eq_ok.mp (forM_ok hrelations node hnode)
  exact require_ok hdangling

end Library

end Qualigence.Observation
