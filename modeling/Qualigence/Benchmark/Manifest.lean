import Mathlib.Algebra.Order.Field.Rat
import Qualigence.Protocol.Json

/-! # Detection benchmark manifests

A manifest freezes the reference profile, the scenarios and the thresholds of a detection
benchmark; the ground truth lists the defects that were seeded into the scenarios. Scoring starts
with a check that the two agree.
-/

namespace Qualigence.Benchmark

open Protocol

inductive DefectSeverity where
  | p0
  | p1
  | p2
  deriving DecidableEq

def DefectSeverity.text : DefectSeverity → String
  | .p0 => "P0"
  | .p1 => "P1"
  | .p2 => "P2"

inductive FindingConfidence where
  | low
  | medium
  | high
  deriving DecidableEq

inductive ProfileStatus where
  | reference
  | unverified
  deriving DecidableEq

inductive GateStatus where
  | passed
  | failed
  | unverified
  deriving DecidableEq

inductive DetectionFailureCode where
  | p0RecallBelowMinimum
  | knownBugRecallBelowMinimum
  | findingPrecisionBelowMinimum
  | stableReproductionRateBelowMinimum
  | highConfidenceFalsePositivesExceeded
  deriving DecidableEq

inductive ScenarioMode where
  | normal
  | fault
  deriving DecidableEq

def ScenarioMode.text : ScenarioMode → String
  | .normal => "normal"
  | .fault => "fault"

/-- The reference profile. The budgets are numbers that nothing here computes with. -/
structure ReferenceModelProfile where
  profileId : String
  providerId : String
  modelId : String
  promptVersion : String
  policyBundleSha256 : String
  skillPackSha256 : String
  browserVersion : String
  fixtureVersions : List (String × String)
  maximumSteps : JsValue
  maximumWallClockMs : JsValue
  maximumModelTokens : JsValue
  repetitions : ℕ

structure BenchmarkScenario where
  scenarioId : String
  fixtureId : String
  fixtureVersion : String
  mode : ScenarioMode
  missionRef : String
  groundTruthRef : String
  expectedDefectIds : List String
  deriving DecidableEq

structure DetectionThresholds where
  p0RecallMinimum : ℚ
  knownBugRecallMinimum : ℚ
  findingPrecisionMinimum : ℚ
  stableReproductionRateMinimum : ℚ
  maximumHighConfidenceFalsePositivesPerNormalMission : ℕ

/-- The thresholds of every manifest: the type of the source admits no others. -/
def defaultDetectionThresholds : DetectionThresholds := ⟨1, 4 / 5, 3 / 5, 7 / 10, 1⟩

structure DetectionBenchmarkManifest where
  benchmarkVersion : String
  referenceProfile : ReferenceModelProfile
  scenarios : List BenchmarkScenario

structure GroundTruthDefect where
  scenarioId : String
  defectId : String
  severity : DefectSeverity
  stable : Bool
  deriving DecidableEq

structure GroundTruth where
  benchmarkVersion : String
  defects : List GroundTruthDefect

inductive BenchmarkErrorCode where
  | benchmarkManifestInvalid
  | groundTruthMismatch
  | referenceProfileMismatch
  | benchmarkAttemptMatrixIncomplete
  deriving DecidableEq

structure BenchmarkError where
  code : BenchmarkErrorCode
  message : String
  deriving DecidableEq

/-! ## Canonical digests -/

def ReferenceModelProfile.toJs (profile : ReferenceModelProfile) : JsValue :=
  .obj [("profileId", .str profile.profileId), ("providerId", .str profile.providerId),
    ("modelId", .str profile.modelId), ("promptVersion", .str profile.promptVersion),
    ("policyBundleSha256", .str profile.policyBundleSha256),
    ("skillPackSha256", .str profile.skillPackSha256),
    ("browserVersion", .str profile.browserVersion),
    ("fixtureVersions", .obj (profile.fixtureVersions.map fun v => (v.1, .str v.2))),
    ("maximumSteps", profile.maximumSteps), ("maximumWallClockMs", profile.maximumWallClockMs),
    ("maximumModelTokens", profile.maximumModelTokens), ("repetitions", .int profile.repetitions)]

def BenchmarkScenario.toJs (scenario : BenchmarkScenario) : JsValue :=
  .obj [("scenarioId", .str scenario.scenarioId), ("fixtureId", .str scenario.fixtureId),
    ("fixtureVersion", .str scenario.fixtureVersion), ("mode", .str scenario.mode.text),
    ("missionRef", .str scenario.missionRef), ("groundTruthRef", .str scenario.groundTruthRef),
    ("expectedDefectIds", .arr (scenario.expectedDefectIds.map .str))]

def thresholdsJs : JsValue :=
  .obj [("p0RecallMinimum", .int 1), ("knownBugRecallMinimum", .real "0.8"),
    ("findingPrecisionMinimum", .real "0.6"), ("stableReproductionRateMinimum", .real "0.7"),
    ("maximumHighConfidenceFalsePositivesPerNormalMission", .int 1)]

def DetectionBenchmarkManifest.toJs (manifest : DetectionBenchmarkManifest) : JsValue :=
  .obj [("schemaVersion", .str "detection-benchmark/v1"),
    ("benchmarkVersion", .str manifest.benchmarkVersion),
    ("referenceProfile", manifest.referenceProfile.toJs),
    ("scenarios", .arr (manifest.scenarios.map BenchmarkScenario.toJs)),
    ("thresholds", thresholdsJs)]

def GroundTruthDefect.toJs (defect : GroundTruthDefect) : JsValue :=
  .obj [("scenarioId", .str defect.scenarioId), ("defectId", .str defect.defectId),
    ("severity", .str defect.severity.text), ("stable", .bool defect.stable)]

def GroundTruth.toJs (truth : GroundTruth) : JsValue :=
  .obj [("benchmarkVersion", .str truth.benchmarkVersion),
    ("defects", .arr (truth.defects.map GroundTruthDefect.toJs))]

/-- The digest of the canonical text of a value. -/
def canonicalSha256 (P : Platform) (v : JsValue) : String :=
  P.sha256 (String.ofList ((stringifyChars (canonicalize v)).getD []))

def referenceProfileSha256 (P : Platform) (profile : ReferenceModelProfile) : String :=
  canonicalSha256 P profile.toJs

def manifestSha256 (P : Platform) (manifest : DetectionBenchmarkManifest) : String :=
  canonicalSha256 P manifest.toJs

def groundTruthSha256 (P : Platform) (truth : GroundTruth) : String :=
  canonicalSha256 P truth.toJs

/-! ## Agreement with the ground truth -/

def firstDuplicateAfter (seen : List String) : List String → Option String
  | [] => none
  | value :: values =>
    if value ∈ seen then some value else firstDuplicateAfter (value :: seen) values

def firstDuplicate (values : List String) : Option String := firstDuplicateAfter [] values

def formatDefectList (defectIds : List String) : String :=
  if defectIds.isEmpty then "none" else String.intercalate ", " defectIds

/-- Every defect is seeded into a scenario of the manifest, and none twice. -/
def checkDefects (manifest : DetectionBenchmarkManifest) (seen : List GroundTruthDefect) :
    List GroundTruthDefect → Except BenchmarkError Unit
  | [] => .ok ()
  | defect :: defects =>
    if !manifest.scenarios.any fun s => decide (s.scenarioId = defect.scenarioId) then
      .error ⟨.groundTruthMismatch, "Ground truth defect \"" ++ defect.defectId ++
        "\" references unknown scenario \"" ++ defect.scenarioId ++ "\"."⟩
    else if seen.any fun d =>
        decide (d.scenarioId = defect.scenarioId ∧ d.defectId = defect.defectId) then
      .error ⟨.groundTruthMismatch, "Duplicate ground-truth defect \"" ++ defect.defectId ++
        "\" for scenario \"" ++ defect.scenarioId ++ "\"."⟩
    else checkDefects manifest (defect :: seen) defects

/-- The defects seeded into a scenario. -/
def truthDefectIds (truth : GroundTruth) (scenarioId : String) : List String :=
  (truth.defects.filter fun d => decide (d.scenarioId = scenarioId)).map (·.defectId)

def checkScenario (truth : GroundTruth) (scenario : BenchmarkScenario) :
    Except BenchmarkError Unit :=
  match firstDuplicate scenario.expectedDefectIds with
  | some duplicate =>
    .error ⟨.benchmarkManifestInvalid, "Scenario \"" ++ scenario.scenarioId ++
      "\" expectedDefectIds contains duplicate defect \"" ++ duplicate ++ "\"."⟩
  | none =>
    let actual := truthDefectIds truth scenario.scenarioId
    let sort := fun ids : List String => ids.insertionSort fun s t => utf16Le s t
    let missing := sort (scenario.expectedDefectIds.filter fun id => decide (id ∉ actual))
    let unexpected := sort (actual.filter fun id => decide (id ∉ scenario.expectedDefectIds))
    if missing.length > 0 ∨ unexpected.length > 0 then
      .error ⟨.groundTruthMismatch, "Scenario \"" ++ scenario.scenarioId ++
        "\" expectedDefectIds must exactly match Ground Truth defects (missing from Ground " ++
        "Truth: " ++ formatDefectList missing ++ "; unexpected in Ground Truth: " ++
        formatDefectList unexpected ++ ")."⟩
    else .ok ()

def assertGroundTruthConsistent (manifest : DetectionBenchmarkManifest) (truth : GroundTruth) :
    Except BenchmarkError Unit :=
  if truth.benchmarkVersion ≠ manifest.benchmarkVersion then
    .error ⟨.groundTruthMismatch, "Ground truth version \"" ++ truth.benchmarkVersion ++
      "\" does not match manifest \"" ++ manifest.benchmarkVersion ++ "\"."⟩
  else do
    checkDefects manifest [] truth.defects
    manifest.scenarios.forM (checkScenario truth)

/-! ### What a consistent ground truth satisfies -/

/-- Where a defect is seeded. -/
def GroundTruthDefect.place (defect : GroundTruthDefect) : String × String :=
  (defect.scenarioId, defect.defectId)

def DetectionBenchmarkManifest.scenarioIds (manifest : DetectionBenchmarkManifest) :
    List String := manifest.scenarios.map (·.scenarioId)

variable {manifest : DetectionBenchmarkManifest}

theorem checkDefects_ok {seen defects : List GroundTruthDefect}
    (h : checkDefects manifest seen defects = .ok ()) :
    (∀ d ∈ defects, d.scenarioId ∈ manifest.scenarioIds) ∧
      (defects.map GroundTruthDefect.place).Nodup ∧
      ∀ d ∈ defects, d.place ∉ seen.map GroundTruthDefect.place := by
  induction defects generalizing seen with
  | nil => exact ⟨nofun, List.nodup_nil, nofun⟩
  | cons defect defects ih =>
    rw [checkDefects] at h
    split at h
    · cases h
    next hknown =>
    split at h
    · cases h
    next hnew =>
    obtain ⟨hscen, hnodup, hseen⟩ := ih h
    have hplace : defect.place ∉ seen.map GroundTruthDefect.place := by
      intro hm
      obtain ⟨d, hd, he⟩ := List.mem_map.mp hm
      apply hnew
      refine List.any_eq_true.mpr ⟨d, hd, decide_eq_true ?_⟩
      exact ⟨congrArg Prod.fst he, congrArg Prod.snd he⟩
    refine ⟨?_, ?_, ?_⟩
    · intro d hd
      obtain rfl | hd := List.mem_cons.mp hd
      · simp only [Bool.not_eq_true', Bool.not_eq_false, List.any_eq_true,
          decide_eq_true_eq] at hknown
        obtain ⟨s, hs, he⟩ := hknown
        exact List.mem_map.mpr ⟨s, hs, he⟩
      · exact hscen d hd
    · rw [List.map_cons, List.nodup_cons]
      refine ⟨?_, hnodup⟩
      intro hm
      obtain ⟨d, hd, he⟩ := List.mem_map.mp hm
      exact hseen d hd (he ▸ List.mem_map.mpr ⟨defect, List.mem_cons_self, rfl⟩)
    · intro d hd
      obtain rfl | hd := List.mem_cons.mp hd
      · exact hplace
      · exact fun hm => hseen d hd (List.mem_cons_of_mem _ hm)

/-- The defects of a consistent ground truth are in scenarios of the manifest, each at a place
of its own. -/
theorem places_of_consistent {truth : GroundTruth}
    (h : assertGroundTruthConsistent manifest truth = .ok ()) :
    (∀ d ∈ truth.defects, d.scenarioId ∈ manifest.scenarioIds) ∧
      (truth.defects.map GroundTruthDefect.place).Nodup := by
  rw [assertGroundTruthConsistent] at h
  split at h
  · cases h
  · cases hc : checkDefects manifest [] truth.defects with
    | error e =>
      rw [hc] at h
      cases h
    | ok u =>
      obtain ⟨hscen, hnodup, -⟩ := checkDefects_ok hc
      exact ⟨hscen, hnodup⟩

end Qualigence.Benchmark
