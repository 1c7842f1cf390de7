import Qualigence.Benchmark.Manifest

/-! # Scoring a detection benchmark

A benchmark is scored from one attempt for each scenario and repetition. Findings are matched to
seeded defects by texts that join the identifiers of the scenario and of the defect.
-/

namespace Qualigence.Benchmark

open Protocol

structure DetectionFinding where
  defectId : String
  confidence : FindingConfidence
  deriving DecidableEq

structure BenchmarkAttempt where
  attemptId : String
  profileSha256 : String
  scenarioId : String
  mode : ScenarioMode
  repetition : ℚ
  findings : List DetectionFinding
  deriving DecidableEq

structure ScoreOptions where
  createdAt : Option String
  inputSha256 : Option String
  attemptBindingSha256s : Option (List String)

structure DetectionRatio where
  numerator : ℕ
  denominator : ℕ
  value : ℚ
  deriving DecidableEq

structure DetectionMetrics where
  p0Recall : DetectionRatio
  knownBugRecall : DetectionRatio
  findingPrecision : DetectionRatio
  stableReproductionRate : DetectionRatio
  highConfidenceFalsePositivesByNormalMission : List (String × ℕ)
  deriving DecidableEq

structure DetectionGate where
  status : GateStatus
  failureCodes : List DetectionFailureCode
  deriving DecidableEq

structure DetectionBenchmarkReport where
  reportId : String
  benchmarkVersion : String
  manifestSha256 : String
  profileSha256 : String
  groundTruthSha256 : String
  inputSha256 : String
  attemptBindingSha256s : List String
  profileStatus : ProfileStatus
  attemptIds : List String
  metrics : DetectionMetrics
  gate : DetectionGate
  createdAt : String
  deriving DecidableEq

def deterministicCreatedAt : String := "1970-01-01T00:00:00.000Z"

def ratio (numerator denominator : ℕ) : DetectionRatio :=
  ⟨numerator, denominator, if denominator = 0 then 1 else numerator / denominator⟩

/-- Two texts joined by a NUL character. -/
def joined (a b : String) : String := a ++ "\u0000" ++ b

def defectKey (scenarioId defectId : String) : String := joined scenarioId defectId

/-- The text of a scenario and a repetition of it. -/
def slotKey (scenarioId : String) (repetition : ℕ) : String :=
  joined scenarioId (toString repetition)

/-! ## The attempt matrix -/

/-- The mode of a scenario; a later scenario replaces an earlier one. -/
def scenarioMode (manifest : DetectionBenchmarkManifest) (scenarioId : String) :
    Option ScenarioMode :=
  (manifest.scenarios.reverse.find? fun s => decide (s.scenarioId = scenarioId)).map (·.mode)

/-- The slots that attempts are expected for. -/
def expectedSlots (manifest : DetectionBenchmarkManifest) : List String :=
  (manifest.scenarioIds.flatMap fun id =>
    (List.range manifest.referenceProfile.repetitions).map fun i => slotKey id (i + 1)).dedup

def matrixError (message : String) : BenchmarkError :=
  ⟨.benchmarkAttemptMatrixIncomplete, message⟩

/-- The repetition of an attempt when it is an integer from 1 to the number of repetitions. -/
def validRepetition (manifest : DetectionBenchmarkManifest) (attempt : BenchmarkAttempt) : Bool :=
  !(decide (attempt.repetition < 1) ||
    decide ((manifest.referenceProfile.repetitions : ℚ) < attempt.repetition) ||
    decide (attempt.repetition.den ≠ 1))

def BenchmarkAttempt.slot (attempt : BenchmarkAttempt) : String :=
  slotKey attempt.scenarioId attempt.repetition.num.toNat

def checkAttempts (manifest : DetectionBenchmarkManifest) (seen : List String) :
    List BenchmarkAttempt → Except BenchmarkError (List String)
  | [] => .ok seen
  | attempt :: attempts =>
    match scenarioMode manifest attempt.scenarioId with
    | none => .error (matrixError ("Attempt \"" ++ attempt.attemptId ++
        "\" references unknown scenario \"" ++ attempt.scenarioId ++ "\"."))
    | some mode =>
      if attempt.mode ≠ mode then
        .error (matrixError ("Attempt \"" ++ attempt.attemptId ++ "\" has mode \"" ++
          attempt.mode.text ++ "\" but scenario \"" ++ attempt.scenarioId ++ "\" is \"" ++
          mode.text ++ "\"."))
      else if !validRepetition manifest attempt then
        .error (matrixError ("Attempt \"" ++ attempt.attemptId ++ "\" repetition " ++
          toString attempt.repetition ++ " is outside 1.." ++
          toString manifest.referenceProfile.repetitions ++ "."))
      else if attempt.slot ∈ seen then
        .error (matrixError ("Duplicate attempt for scenario \"" ++ attempt.scenarioId ++
          "\" repetition " ++ toString attempt.repetition ++ "."))
      else checkAttempts manifest (attempt.slot :: seen) attempts

def assertCompleteAttemptMatrix (manifest : DetectionBenchmarkManifest)
    (attempts : List BenchmarkAttempt) : Except BenchmarkError Unit := do
  let seen ← checkAttempts manifest [] attempts
  if seen.length ≠ (expectedSlots manifest).length then
    .error (matrixError ("Expected " ++ toString (expectedSlots manifest).length ++
      " attempts (scenarios x repetitions) but received " ++ toString seen.length ++ "."))
  else .ok ()

def assertSingleProfile (attempts : List BenchmarkAttempt) : Except BenchmarkError String :=
  match attempts with
  | [] => .error (matrixError "No attempts were supplied to score.")
  | first :: _ =>
    if attempts.any fun a => decide (a.profileSha256 ≠ first.profileSha256) then
      .error ⟨.referenceProfileMismatch,
        "All attempts in a benchmark run must share one profile fingerprint."⟩
    else .ok first.profileSha256

/-! ## Metrics -/

def attemptsOf (attempts : List BenchmarkAttempt) (scenarioId : String) :
    List BenchmarkAttempt :=
  attempts.filter fun a => decide (a.scenarioId = scenarioId)

/-- The findings of all attempts, each with the scenario it was made in. -/
def findingsOf (attempts : List BenchmarkAttempt) : List (String × DetectionFinding) :=
  attempts.flatMap fun a => a.findings.map fun f => (a.scenarioId, f)

def isDetected (attempts : List BenchmarkAttempt) (defect : GroundTruthDefect) : Bool :=
  decide (defectKey defect.scenarioId defect.defectId ∈
    (findingsOf attempts).map fun f => defectKey f.1 f.2.defectId)

def knownDefectKeys (truth : GroundTruth) : List String :=
  truth.defects.map fun d => defectKey d.scenarioId d.defectId

def isHigh (f : DetectionFinding) : Bool := decide (f.confidence = .high)

/-- Whether a finding in a scenario has the key of a seeded defect. -/
def isKnown (truth : GroundTruth) (scenarioId defectId : String) : Bool :=
  decide (defectKey scenarioId defectId ∈ knownDefectKeys truth)

def detectionRecall (attempts : List BenchmarkAttempt) (defects : List GroundTruthDefect) :
    DetectionRatio :=
  ratio (defects.countP (isDetected attempts)) defects.length

def p0Defects (truth : GroundTruth) : List GroundTruthDefect :=
  truth.defects.filter fun d => decide (d.severity = .p0)

def p0Recall (attempts : List BenchmarkAttempt) (truth : GroundTruth) : DetectionRatio :=
  if (p0Defects truth).length = 0 then ⟨0, 0, 0⟩ else detectionRecall attempts (p0Defects truth)

def findingPrecision (attempts : List BenchmarkAttempt) (truth : GroundTruth) : DetectionRatio :=
  ratio ((findingsOf attempts).countP fun f => isHigh f.2 && isKnown truth f.1 f.2.defectId)
    ((findingsOf attempts).countP fun f => isHigh f.2)

def reports (defectId : String) (attempt : BenchmarkAttempt) : Bool :=
  attempt.findings.any fun f => decide (f.defectId = defectId)

def stableDefects (truth : GroundTruth) : List GroundTruthDefect :=
  truth.defects.filter (·.stable)

def stableReproductionRate (attempts : List BenchmarkAttempt) (truth : GroundTruth) :
    DetectionRatio :=
  ratio
    ((stableDefects truth).map fun d =>
      (attemptsOf attempts d.scenarioId).countP (reports d.defectId)).sum
    ((stableDefects truth).map fun d => (attemptsOf attempts d.scenarioId).length).sum

def falsePositives (attempts : List BenchmarkAttempt) (truth : GroundTruth)
    (scenarioId : String) : ℕ :=
  ((attemptsOf attempts scenarioId).flatMap (·.findings)).countP fun f =>
    isHigh f && !isKnown truth scenarioId f.defectId

/-- The assignment of a number to a property of an object: the property `__proto__` of an object
takes no number. -/
def setProperty (record : List (String × ℕ)) (key : String) (value : ℕ) : List (String × ℕ) :=
  if key = "__proto__" then record
  else if key ∈ record.map Prod.fst then
    record.map fun entry => if entry.1 = key then (key, value) else entry
  else record ++ [(key, value)]

def falsePositivesByNormalMission (manifest : DetectionBenchmarkManifest)
    (attempts : List BenchmarkAttempt) (truth : GroundTruth) : List (String × ℕ) :=
  manifest.scenarios.foldl (fun record scenario =>
    if scenario.mode ≠ .normal then record
    else setProperty record scenario.scenarioId
      (falsePositives attempts truth scenario.scenarioId)) []

def computeMetrics (manifest : DetectionBenchmarkManifest) (attempts : List BenchmarkAttempt)
    (truth : GroundTruth) : DetectionMetrics where
  p0Recall := p0Recall attempts truth
  knownBugRecall := detectionRecall attempts truth.defects
  findingPrecision := findingPrecision attempts truth
  stableReproductionRate := stableReproductionRate attempts truth
  highConfidenceFalsePositivesByNormalMission :=
    falsePositivesByNormalMission manifest attempts truth

/-! ## The gate -/

def failureWhen (failed : Bool) (code : DetectionFailureCode) : List DetectionFailureCode :=
  if failed then [code] else []

def evaluateThresholds (metrics : DetectionMetrics) : List DetectionFailureCode :=
  let thresholds := defaultDetectionThresholds
  failureWhen (decide (metrics.p0Recall.denominator = 0 ∨
      metrics.p0Recall.numerator ≠ metrics.p0Recall.denominator ∨
      metrics.p0Recall.value < thresholds.p0RecallMinimum)) .p0RecallBelowMinimum ++
  failureWhen (decide (metrics.knownBugRecall.value < thresholds.knownBugRecallMinimum))
    .knownBugRecallBelowMinimum ++
  failureWhen (decide (metrics.findingPrecision.value < thresholds.findingPrecisionMinimum))
    .findingPrecisionBelowMinimum ++
  failureWhen (decide (metrics.stableReproductionRate.value <
    thresholds.stableReproductionRateMinimum)) .stableReproductionRateBelowMinimum ++
  failureWhen (metrics.highConfidenceFalsePositivesByNormalMission.any fun entry =>
      decide (thresholds.maximumHighConfidenceFalsePositivesPerNormalMission < entry.2))
    .highConfidenceFalsePositivesExceeded

def gateOf (profileStatus : ProfileStatus) (failureCodes : List DetectionFailureCode) :
    DetectionGate where
  status := match profileStatus with
    | .unverified => .unverified
    | .reference => if failureCodes.length = 0 then .passed else .failed
  failureCodes

def sortTexts (texts : List String) : List String := texts.insertionSort fun s t => utf16Le s t

def reportOf (P : Platform) (manifest : DetectionBenchmarkManifest)
    (attempts : List BenchmarkAttempt) (truth : GroundTruth) (options : ScoreOptions)
    (profileHash : String) : DetectionBenchmarkReport :=
  let metrics := computeMetrics manifest attempts truth
  let profileStatus := if profileHash = referenceProfileSha256 P manifest.referenceProfile
    then .reference else .unverified
  let manifestHash := manifestSha256 P manifest
  let truthHash := groundTruthSha256 P truth
  let attemptIds := sortTexts (attempts.map (·.attemptId))
  let inputSha256 := options.inputSha256.getD (canonicalSha256 P (.obj
    [("manifestHash", .str manifestHash), ("profileHash", .str profileHash),
      ("truthHash", .str truthHash)]))
  let bindings := sortTexts (options.attemptBindingSha256s.getD attemptIds)
  { reportId := canonicalSha256 P (.obj
      [("manifestHash", .str manifestHash), ("profileHash", .str profileHash),
        ("truthHash", .str truthHash), ("inputSha256", .str inputSha256),
        ("attemptIds", .arr (attemptIds.map .str)),
        ("attemptBindingSha256s", .arr (bindings.map .str))])
    benchmarkVersion := manifest.benchmarkVersion
    manifestSha256 := manifestHash
    profileSha256 := profileHash
    groundTruthSha256 := truthHash
    inputSha256
    attemptBindingSha256s := bindings
    profileStatus
    attemptIds
    metrics
    gate := gateOf profileStatus (evaluateThresholds metrics)
    createdAt := options.createdAt.getD deterministicCreatedAt }

def scoreBenchmark (P : Platform) (manifest : DetectionBenchmarkManifest)
    (attempts : List BenchmarkAttempt) (truth : GroundTruth) (options : ScoreOptions) :
    Except BenchmarkError DetectionBenchmarkReport := do
  assertGroundTruthConsistent manifest truth
  assertCompleteAttemptMatrix manifest attempts
  let profileHash ← assertSingleProfile attempts
  .ok (reportOf P manifest attempts truth options profileHash)

end Qualigence.Benchmark
