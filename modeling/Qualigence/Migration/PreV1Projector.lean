import Qualigence.Migration.LedgerFile
import Qualigence.Observation.Graph

/-! # Projecting observations of before the first schema

An observation recorded before there was a schema is projected to a graph of the schema, beside the
metadata that says where it comes from. The graph has no place for everything the observation says:
of a web page it keeps the origin and the path, of any other target neither address nor title.
-/

namespace Qualigence.Migration

open Observation

/-! ## Assets -/

structure ObservationNode where
  id : String
  role : String
  name : Option String
  text : Option String
  value : Option String
  disabled : Option Bool
  confidence : ℚ
  deriving DecidableEq

/-- An observation as it was recorded before the schema. -/
structure ObservationGraph where
  graphId : String
  url : Option String
  title : Option String
  capturedAt : Option String
  artifactRefs : Option (List String)
  nodes : List ObservationNode
  deriving DecidableEq

structure PreV1ObservationAsset where
  assetId : String
  kind : AssetKind
  sourceSchemaVersion : String
  target : ObservationTarget
  adapterId : String
  sourceKind : Option String
  capturedAt : Option String
  observation : ObservationGraph
  declaredSourceHash : Option String
  locatorSchemaVersion : Option String
  skillCompilerVersion : Option String
  deriving DecidableEq

structure ProjectionRecord where
  assetId : String
  sourceHash : String
  graph : ObservationGraphV1
  metadata : PreV1AssetMetadata
  migratorVersion : String
  deriving DecidableEq

/-- The parts of a URL that a graph shows. -/
structure WebLocation where
  origin : String
  pathname : String
  deriving DecidableEq

/-- Beside what validation uses, the hash of an observation and the parser behind `new URL`, which
fails on a text that is no URL. -/
structure ProjectionLibrary extends ObservationLibrary where
  canonicalObservationHash : ObservationGraph → String
  newURL : String → Option WebLocation

/-! ## Projection -/

def OBSERVATION_MIGRATOR_VERSION : String := "observation-migrator/v1"

def DEFAULT_SOURCE_KIND : String := "accessibility"

def WEB_EXTENSION_V1_TYPE : String := "web/v1"

namespace PreV1ObservationAsset

/-- `source.capturedAt ?? asset.capturedAt` -/
def captureTime (asset : PreV1ObservationAsset) : Option String :=
  asset.observation.capturedAt.or asset.capturedAt

/-- `asset.observation.url ?? asset.target.targetId` -/
def sourceUrl (asset : PreV1ObservationAsset) : String :=
  asset.observation.url.getD asset.target.targetId

end PreV1ObservationAsset

/-- Text and availability of a node become states, and a node that says nothing about them has no
such state. -/
def toV1Node (node : ObservationNode) (adapterId sourceKind : String) : ObservationNodeV1 where
  id := node.id
  role := node.role
  name := node.name
  value := node.value
  state := (node.disabled.map fun b => ("disabled", StateValue.bool b)).toList ++
    (node.text.map fun s => ("text", StateValue.str s)).toList
  bounds := none
  relations := []
  source := ⟨adapterId, sourceKind⟩
  confidence := node.confidence
  sensitivity := .visible
  extensions := []
  evidenceRefs := []

section Library

variable (L : ProjectionLibrary)

def webExtension (location : WebLocation) (title : String) : VersionedExtension where
  type := WEB_EXTENSION_V1_TYPE
  version := "1.0"
  setSemantics := none
  payload := [("origin", .str location.origin), ("pathname", .str location.pathname),
    ("title", .str title),
    ("viewport", .obj [("width", .int 1), ("height", .int 1), ("devicePixelRatio", .int 1)]),
    ("query", .obj [])]

/-- What a graph says of a web page; nothing of any other target. -/
def webExtensionForPreV1Source (asset : PreV1ObservationAsset) :
    Except ObservationThrown Extensions :=
  if asset.target.kind ≠ .web then .ok []
  else
    match L.newURL asset.sourceUrl with
    | none => .error (.observation .projectionUnsupported)
    | some url =>
      .ok [(WEB_EXTENSION_V1_TYPE, webExtension url (asset.observation.title.getD ""))]

/-- `graphId`, every `id` and the declared hash are looked at, before anything is projected. -/
def verifiedSourceHash (asset : PreV1ObservationAsset) : Except ObservationThrown String := do
  require (asset.observation.graphId ≠ "") .sourceAssetCorrupted
  require (∀ node ∈ asset.observation.nodes, node.id ≠ "") .sourceAssetCorrupted
  let hash := L.canonicalObservationHash asset.observation
  require (∀ declared ∈ asset.declaredSourceHash, declared = hash) .sourceAssetCorrupted
  return hash

def toV1 (asset : PreV1ObservationAsset) : Except ObservationThrown ObservationGraphV1 := do
  let source := asset.observation
  let capturedAt := asset.captureTime.getD ""
  require (capturedAt ≠ "") .projectionUnsupported
  let sourceKind := asset.sourceKind.getD DEFAULT_SOURCE_KIND
  let nodes := source.nodes.map (toV1Node · asset.adapterId sourceKind)
  let extensions ← webExtensionForPreV1Source L asset
  return {
    graphId := source.graphId
    target := asset.target
    capturedAt := capturedAt
    -- no node of a flat graph lies inside another one
    rootNodeIds := nodes.map (·.id)
    nodes := nodes
    evidenceRefs := source.artifactRefs.getD []
    extensions := extensions }

def preV1Metadata (asset : PreV1ObservationAsset) : PreV1AssetMetadata where
  sourceSchemaVersion := asset.sourceSchemaVersion
  locatorSchemaVersion := asset.locatorSchemaVersion
  skillCompilerVersion := asset.skillCompilerVersion
  sourceArtifactRefs := asset.observation.artifactRefs.getD []

/-- A graph that is not valid is refused, whatever is wrong with it. -/
def projectRecord (asset : PreV1ObservationAsset) : Except ObservationThrown ProjectionRecord := do
  let sourceHash ← verifiedSourceHash L asset
  let graph ← toV1 L asset
  match validateObservationGraphV1 L.toObservationLibrary [] graph with
  | .error _ => .error (.observation .projectionUnsupported)
  | .ok _ =>
    return {
      assetId := asset.assetId
      sourceHash := sourceHash
      graph := graph
      metadata := preV1Metadata asset
      migratorVersion := OBSERVATION_MIGRATOR_VERSION }

def project (asset : PreV1ObservationAsset) : Except ObservationThrown ObservationGraphV1 :=
  (projectRecord L asset).map (·.graph)

/-! ## What a projection keeps -/

/-- The observations say the same about everything a projection has a place for. -/
structure KeptAlike (asset asset' : PreV1ObservationAsset) : Prop where
  graphId : asset.observation.graphId = asset'.observation.graphId
  captureTime : asset.captureTime = asset'.captureTime
  nodes : asset.observation.nodes = asset'.observation.nodes
  artifactRefs : asset.observation.artifactRefs.getD [] = asset'.observation.artifactRefs.getD []
  location : asset.target.kind = .web → L.newURL asset.sourceUrl = L.newURL asset'.sourceUrl
  title : asset.target.kind = .web →
    asset.observation.title.getD "" = asset'.observation.title.getD ""

/-- The observations say the same, where nothing said of a title or of artifacts is an empty title
and no artifacts. -/
structure ObservedAlike (o o' : ObservationGraph) : Prop where
  graphId : o.graphId = o'.graphId
  capturedAt : o.capturedAt = o'.capturedAt
  nodes : o.nodes = o'.nodes
  url : o.url = o'.url
  title : o.title.getD "" = o'.title.getD ""
  artifactRefs : o.artifactRefs.getD [] = o'.artifactRefs.getD []

/-- Assets that differ in nothing but their observations. -/
def SameEnvelope (asset asset' : PreV1ObservationAsset) : Prop :=
  { asset with observation := asset'.observation } = asset'

instance (asset asset' : PreV1ObservationAsset) : Decidable (SameEnvelope asset asset') :=
  inferInstanceAs (Decidable (_ = _))

/-- The observation can be told from the projection. -/
def Lossless : Prop :=
  ∀ asset asset' record record', SameEnvelope asset asset' →
    projectRecord L asset = .ok record → projectRecord L asset' = .ok record' →
    record.graph = record'.graph → record.metadata = record'.metadata →
    ObservedAlike asset.observation asset'.observation

theorem toV1Node_injective (adapterId sourceKind : String) :
    Function.Injective (toV1Node · adapterId sourceKind) := by
  intro n n' h
  have hstate := congrArg ObservationNodeV1.state h
  obtain ⟨id, role, name, text, value, disabled, confidence⟩ := n
  obtain ⟨id', role', name', text', value', disabled', confidence'⟩ := n'
  simp only [toV1Node, ObservationNodeV1.mk.injEq] at h
  obtain ⟨rfl, rfl, rfl, rfl, -, -, -, -, rfl, -, -, -⟩ := h
  have hboth : disabled = disabled' ∧ text = text' := by
    cases disabled <;> cases disabled' <;> cases text <;> cases text' <;>
      simp [toV1Node] at hstate ⊢ <;> assumption
  rw [hboth.1, hboth.2]

variable {L}

/-- What an accepted asset is projected to. -/
theorem projectRecord_ok {asset : PreV1ObservationAsset} {record : ProjectionRecord}
    (h : projectRecord L asset = .ok record) :
    asset.captureTime.getD "" ≠ "" ∧
      toV1 L asset = .ok record.graph ∧ record.metadata = preV1Metadata asset := by
  unfold projectRecord at h
  obtain ⟨_, -, h⟩ := Foundation.bind_eq_ok.mp h
  obtain ⟨graph, hgraph, h⟩ := Foundation.bind_eq_ok.mp h
  have htime : asset.captureTime.getD "" ≠ "" := by
    obtain ⟨_, htime, -⟩ := Foundation.bind_eq_ok.mp hgraph
    exact require_ok htime
  cases hvalid : validateObservationGraphV1 L.toObservationLibrary [] graph with
  | error thrown => simp [hvalid] at h
  | ok _ =>
    rw [hvalid] at h
    cases h
    exact ⟨htime, hgraph, rfl⟩

/-- The graph of an accepted asset, with what it says of a web page. -/
theorem toV1_ok {asset : PreV1ObservationAsset} {graph : ObservationGraphV1}
    (h : toV1 L asset = .ok graph) :
    webExtensionForPreV1Source L asset = .ok graph.extensions ∧
      graph.graphId = asset.observation.graphId ∧
      graph.target = asset.target ∧
      graph.capturedAt = asset.captureTime.getD "" ∧
      graph.rootNodeIds = asset.observation.nodes.map (·.id) ∧
      graph.nodes = asset.observation.nodes.map
        (toV1Node · asset.adapterId (asset.sourceKind.getD DEFAULT_SOURCE_KIND)) ∧
      graph.evidenceRefs = asset.observation.artifactRefs.getD [] := by
  obtain ⟨_, -, h⟩ := Foundation.bind_eq_ok.mp h
  obtain ⟨extensions, hextensions, h⟩ := Foundation.bind_eq_ok.mp h
  cases h
  refine ⟨hextensions, rfl, rfl, rfl, ?_, rfl, rfl⟩
  rw [List.map_map]
  rfl

/-- Of a web page the extension shows location and title, and nothing else. -/
theorem webExtension_alike {asset asset' : PreV1ObservationAsset} {x x' : Extensions}
    (htarget : asset.target = asset'.target)
    (h : webExtensionForPreV1Source L asset = .ok x)
    (h' : webExtensionForPreV1Source L asset' = .ok x') :
    x = x' ↔ (asset.target.kind = .web → L.newURL asset.sourceUrl = L.newURL asset'.sourceUrl) ∧
      (asset.target.kind = .web →
        asset.observation.title.getD "" = asset'.observation.title.getD "") := by
  unfold webExtensionForPreV1Source at h h'
  rw [← htarget] at h'
  by_cases hweb : asset.target.kind = .web
  · rw [if_neg (not_not.mpr hweb)] at h h'
    cases hurl : L.newURL asset.sourceUrl with
    | none => simp [hurl] at h
    | some location =>
      cases hurl' : L.newURL asset'.sourceUrl with
      | none => simp [hurl'] at h'
      | some location' =>
        obtain ⟨origin, pathname⟩ := location
        obtain ⟨origin', pathname'⟩ := location'
        rw [hurl] at h
        rw [hurl'] at h'
        cases h
        cases h'
        simp [webExtension, hweb, and_assoc]
  · rw [if_pos hweb] at h h'
    cases h
    cases h'
    simp [hweb]

theorem some_of_getD_ne {o : Option String} (h : o.getD "" ≠ "") : o = some (o.getD "") := by
  cases o with
  | none => exact absurd rfl h
  | some s => rfl

/-- Assets that differ in their observations are projected to the same exactly when these agree on
what a projection keeps. -/
theorem projected_alike_iff (L : ProjectionLibrary) (asset asset' : PreV1ObservationAsset)
    (record record' : ProjectionRecord) (hsame : SameEnvelope asset asset')
    (h : projectRecord L asset = .ok record) (h' : projectRecord L asset' = .ok record') :
    (record.graph = record'.graph ∧ record.metadata = record'.metadata) ↔
      KeptAlike L asset asset' := by
  obtain ⟨htime, hgraph, hmetadata⟩ := projectRecord_ok h
  obtain ⟨htime', hgraph', hmetadata'⟩ := projectRecord_ok h'
  obtain ⟨hx, hid, htarget, hat, hroots, hnodes, hrefs⟩ := toV1_ok hgraph
  obtain ⟨hx', hid', htarget', hat', hroots', hnodes', hrefs'⟩ := toV1_ok hgraph'
  have htargets : asset.target = asset'.target := congrArg (·.target) hsame
  have hadapters : asset.adapterId = asset'.adapterId := congrArg (·.adapterId) hsame
  have hkinds : asset.sourceKind = asset'.sourceKind := congrArg (·.sourceKind) hsame
  have hweb := webExtension_alike htargets hx hx'
  constructor
  · rintro ⟨hg, -⟩
    obtain ⟨hlocation, htitle⟩ := hweb.mp (congrArg (·.extensions) hg)
    refine ⟨?_, ?_, ?_, ?_, hlocation, htitle⟩
    · rw [← hid, hg, hid']
    · rw [some_of_getD_ne htime, some_of_getD_ne htime', ← hat, hg, hat']
    · have hmapped := congrArg (·.nodes) hg
      simp only [hnodes, hnodes', hadapters, hkinds] at hmapped
      exact List.map_injective_iff.mpr (toV1Node_injective _ _) hmapped
    · rw [← hrefs, hg, hrefs']
  · intro hkept
    constructor
    · ext1
      · rw [hid, hid', hkept.graphId]
      · rw [htarget, htarget', htargets]
      · rw [hat, hat', hkept.captureTime]
      · rw [hroots, hroots', hkept.nodes]
      · rw [hnodes, hnodes', hkept.nodes, hadapters, hkinds]
      · rw [hrefs, hrefs', hkept.artifactRefs]
      · exact hweb.mpr ⟨hkept.location, hkept.title⟩
    · have hsource : asset.sourceSchemaVersion = asset'.sourceSchemaVersion :=
        congrArg (·.sourceSchemaVersion) hsame
      have hlocator : asset.locatorSchemaVersion = asset'.locatorSchemaVersion :=
        congrArg (·.locatorSchemaVersion) hsame
      have hcompiler : asset.skillCompilerVersion = asset'.skillCompilerVersion :=
        congrArg (·.skillCompilerVersion) hsame
      rw [hmetadata, hmetadata', preV1Metadata, preV1Metadata, hsource, hlocator, hcompiler,
        hkept.artifactRefs]

end Library

/-! ## A search page -/

/-- The results of one search; what was searched for stands in the query of the URL. -/
def searchPage (url : String) : PreV1ObservationAsset where
  assetId := "trace-search"
  kind := .observation
  sourceSchemaVersion := "trace-event/v1"
  target := ⟨.web, "web-shop"⟩
  adapterId := "web-playwright"
  sourceKind := none
  capturedAt := none
  observation := {
    graphId := "run-search:observation:0"
    url := some url
    title := some "Search"
    capturedAt := some "2026-08-01T09:00:00.000Z"
    artifactRefs := none
    nodes := [⟨"n-0", "heading", some "Results", none, none, none, 1⟩] }
  declaredSourceHash := none
  locatorSchemaVersion := none
  skillCompilerVersion := none

def teaUrl : String := "https://shop.test/search?q=tea"

def milkUrl : String := "https://shop.test/search?q=milk"

/-- What the environment answers about the two searches. -/
def searchLibrary : ProjectionLibrary where
  toLowerCase := id
  normalizeNFC := id
  toText := fun _ => ""
  validateExtensions := fun _ _ _ _ => .ok ()
  canonicalObservationHash := fun o =>
    if o.url = some teaUrl then
      "485f63311b18c4ea59ee5400dab2b21dce9a4f6a60ecc7070b4cfe1d774455f0"
    else "a5711641946899c01612d11999ee23de8e0f1a95b89d89335d0c440f970b1cdd"
  newURL := fun url =>
    if url = teaUrl ∨ url = milkUrl then some ⟨"https://shop.test", "/search"⟩ else none

/-- The record of a search. -/
def searchRecord (sourceHash : String) : ProjectionRecord where
  assetId := "trace-search"
  sourceHash := sourceHash
  graph := {
    graphId := "run-search:observation:0"
    target := ⟨.web, "web-shop"⟩
    capturedAt := "2026-08-01T09:00:00.000Z"
    rootNodeIds := ["n-0"]
    nodes := [{
      id := "n-0"
      role := "heading"
      name := some "Results"
      value := none
      state := []
      bounds := none
      relations := []
      source := ⟨"web-playwright", "accessibility"⟩
      confidence := 1
      sensitivity := .visible
      extensions := []
      evidenceRefs := [] }]
    evidenceRefs := []
    extensions := [(WEB_EXTENSION_V1_TYPE,
      webExtension ⟨"https://shop.test", "/search"⟩ "Search")] }
  metadata := ⟨"trace-event/v1", none, none, []⟩
  migratorVersion := OBSERVATION_MIGRATOR_VERSION

theorem tea_projected : projectRecord searchLibrary (searchPage teaUrl) =
    .ok (searchRecord "485f63311b18c4ea59ee5400dab2b21dce9a4f6a60ecc7070b4cfe1d774455f0") := by
  decide

theorem milk_projected : projectRecord searchLibrary (searchPage milkUrl) =
    .ok (searchRecord "a5711641946899c01612d11999ee23de8e0f1a95b89d89335d0c440f970b1cdd") := by
  decide

/-- Two searches of one page. -/
theorem projected_alike_iff_search :
    ((searchRecord "485f63311b18c4ea59ee5400dab2b21dce9a4f6a60ecc7070b4cfe1d774455f0").graph =
        (searchRecord "a5711641946899c01612d11999ee23de8e0f1a95b89d89335d0c440f970b1cdd").graph ∧
      (searchRecord "485f63311b18c4ea59ee5400dab2b21dce9a4f6a60ecc7070b4cfe1d774455f0").metadata =
        (searchRecord
          "a5711641946899c01612d11999ee23de8e0f1a95b89d89335d0c440f970b1cdd").metadata) ↔
      KeptAlike searchLibrary (searchPage teaUrl) (searchPage milkUrl) :=
  projected_alike_iff searchLibrary (searchPage teaUrl) (searchPage milkUrl) _ _ rfl tea_projected
    milk_projected

/-- The projection forgets the query of a URL. -/
theorem query_is_dropped : ¬ Lossless searchLibrary := by
  intro hlossless
  have halike := hlossless (searchPage teaUrl) (searchPage milkUrl) _ _ rfl tea_projected
    milk_projected rfl rfl
  exact absurd halike.url (by decide)

end Qualigence.Migration
