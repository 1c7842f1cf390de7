import Mathlib.Algebra.Order.BigOperators.Group.List
import Mathlib.Algebra.Order.Field.Basic
import Mathlib.Tactic.NormNum
import Qualigence.Benchmark.Matrix
import Qualigence.Protocol.TextOrder

/-! # Laws of the score

The score does not depend on the order of the attempts, a further detection and the removal of a
false finding never make the gate worse, and a passed gate vouches for the attempts and for the
most severe defects.
-/

namespace Qualigence.Benchmark

open Protocol

/-! ## Order -/

section Order

variable {attempts attempts' : List BenchmarkAttempt} (h : attempts.Perm attempts')

include h

theorem attemptsOf_perm (id : String) :
    (attemptsOf attempts id).Perm (attemptsOf attempts' id) := h.filter _

theorem findingsOf_perm : (findingsOf attempts).Perm (findingsOf attempts') := h.flatMap_right _

theorem isDetected_perm : isDetected attempts = isDetected attempts' := by
  funext d
  exact decide_eq_decide.mpr ((findingsOf_perm h).map _).mem_iff

theorem recall_perm (defects : List GroundTruthDefect) :
    detectionRecall attempts defects = detectionRecall attempts' defects := by
  rw [detectionRecall, detectionRecall, isDetected_perm h]

theorem falsePositives_perm (truth : GroundTruth) :
    falsePositives attempts truth = falsePositives attempts' truth := by
  funext id
  exact ((attemptsOf_perm h id).flatMap_right _).countP_eq _

theorem computeMetrics_perm (manifest : DetectionBenchmarkManifest) (truth : GroundTruth) :
    computeMetrics manifest attempts truth = computeMetrics manifest attempts' truth := by
  have hreproduced : ∀ d : GroundTruthDefect,
      (attemptsOf attempts d.scenarioId).countP (reports d.defectId) =
        (attemptsOf attempts' d.scenarioId).countP (reports d.defectId) :=
    fun d => (attemptsOf_perm h d.scenarioId).countP_eq _
  have hslots : ∀ d : GroundTruthDefect, (attemptsOf attempts d.scenarioId).length =
      (attemptsOf attempts' d.scenarioId).length :=
    fun d => (attemptsOf_perm h d.scenarioId).length_eq
  have hcount : ∀ p, (findingsOf attempts).countP p = (findingsOf attempts').countP p :=
    fun p => (findingsOf_perm h).countP_eq p
  simp only [computeMetrics, p0Recall, recall_perm h, findingPrecision, hcount,
    stableReproductionRate, hreproduced, hslots, falsePositivesByNormalMission,
    falsePositives_perm h]

theorem reportOf_perm (P : Platform) (manifest : DetectionBenchmarkManifest)
    (truth : GroundTruth) (options : ScoreOptions) (profileHash : String) :
    reportOf P manifest attempts truth options profileHash =
      reportOf P manifest attempts' truth options profileHash := by
  have hids : sortTexts (attempts.map (·.attemptId)) = sortTexts (attempts'.map (·.attemptId)) :=
    insertionSort_eq_of_perm (h.map _)
  simp only [reportOf, computeMetrics_perm h, hids]

end Order

variable {P : Platform} {manifest : DetectionBenchmarkManifest} {truth : GroundTruth}
  {options : ScoreOptions} {attempts attempts' : List BenchmarkAttempt}
  {report : DetectionBenchmarkReport}

theorem score_eq_ok : scoreBenchmark P manifest attempts truth options = .ok report ↔
    assertGroundTruthConsistent manifest truth = .ok () ∧ Complete manifest attempts ∧
    ∃ profileHash, assertSingleProfile attempts = .ok profileHash ∧
      report = reportOf P manifest attempts truth options profileHash := by
  rw [← matrix_ok_iff, scoreBenchmark]
  cases assertGroundTruthConsistent manifest truth with
  | error e => exact ⟨nofun, nofun⟩
  | ok u =>
    cases assertCompleteAttemptMatrix manifest attempts with
    | error e => exact ⟨nofun, nofun⟩
    | ok u =>
      cases assertSingleProfile attempts with
      | error e => exact ⟨nofun, nofun⟩
      | ok profileHash =>
        constructor
        · intro h
          cases h
          exact ⟨rfl, rfl, profileHash, rfl, rfl⟩
        · rintro ⟨-, -, _, hp, rfl⟩
          cases hp
          rfl

/-- The same report, or refusals of one kind; the text of a refusal names the first attempt that
is wrong. -/
def SameOutcome : Except BenchmarkError DetectionBenchmarkReport →
    Except BenchmarkError DetectionBenchmarkReport → Prop
  | .ok report, .ok report' => report = report'
  | .error e, .error e' => e.code = e'.code
  | _, _ => False

/-- The kind of refusal of a list of attempts. -/
theorem score_error_code {e : BenchmarkError}
    (hc : assertGroundTruthConsistent manifest truth = .ok ())
    (h : scoreBenchmark P manifest attempts truth options = .error e) :
    (¬ Complete manifest attempts ∨ attempts = []) ∧ e.code = .benchmarkAttemptMatrixIncomplete ∨
      (Complete manifest attempts ∧ attempts ≠ []) ∧ e.code = .referenceProfileMismatch := by
  rw [scoreBenchmark, hc] at h
  cases hm : assertCompleteAttemptMatrix manifest attempts with
  | error e' =>
    have hn : ¬ Complete manifest attempts := by
      rw [← matrix_ok_iff, hm]
      nofun
    simp only [hm] at h
    cases h
    exact Or.inl ⟨Or.inl hn, matrix_error hm⟩
  | ok u =>
    have hcomplete := matrix_ok_iff.mp hm
    cases hp : assertSingleProfile attempts with
    | ok profileHash =>
      simp only [hm, hp] at h
      cases h
    | error e' =>
      simp only [hm, hp] at h
      cases h
      by_cases hne : attempts = []
      · refine Or.inl ⟨Or.inr hne, ?_⟩
        rw [hne] at hp
        cases hp
        rfl
      · exact Or.inr ⟨⟨hcomplete, hne⟩, profile_error hne hp⟩

theorem score_perm (h : attempts.Perm attempts') :
    SameOutcome (scoreBenchmark P manifest attempts truth options)
      (scoreBenchmark P manifest attempts' truth options) := by
  have hiff : ∀ report, scoreBenchmark P manifest attempts truth options = .ok report ↔
      scoreBenchmark P manifest attempts' truth options = .ok report := by
    intro report
    have hprofile : ∀ hash, assertSingleProfile attempts = .ok hash ↔
        assertSingleProfile attempts' = .ok hash := by
      intro hash
      rw [profile_ok_iff, profile_ok_iff]
      simp only [h.mem_iff, ne_eq, ← List.length_eq_zero_iff, h.length_eq]
    have hcomplete : Complete manifest attempts ↔ Complete manifest attempts' :=
      ⟨fun hc => hc.perm h, fun hc => hc.perm h.symm⟩
    simp only [score_eq_ok, hprofile, hcomplete, reportOf_perm h]
  cases hs : scoreBenchmark P manifest attempts truth options with
  | ok report =>
    rw [(hiff report).mp hs]
    rfl
  | error e =>
    cases hs' : scoreBenchmark P manifest attempts' truth options with
    | ok report =>
      rw [(hiff report).mpr hs'] at hs
      cases hs
    | error e' =>
      change e.code = e'.code
      cases hc : assertGroundTruthConsistent manifest truth with
      | error e'' =>
        rw [scoreBenchmark, hc] at hs hs'
        cases hs
        cases hs'
        rfl
      | ok u =>
        have hcomplete : Complete manifest attempts ↔ Complete manifest attempts' :=
          ⟨fun hc => hc.perm h, fun hc => hc.perm h.symm⟩
        have hempty : attempts = [] ↔ attempts' = [] := by
          rw [← List.length_eq_zero_iff, ← List.length_eq_zero_iff, h.length_eq]
        obtain ⟨hw, he⟩ | ⟨hw, he⟩ := score_error_code hc hs <;>
          obtain ⟨hw', he'⟩ | ⟨hw', he'⟩ := score_error_code hc hs' <;> rw [he, he']
        · rw [hcomplete, hempty] at hw
          tauto
        · rw [hcomplete, ne_eq, hempty] at hw
          tauto

/-! ## Monotonicity -/

/-- In every respect that the gate looks at, the second list of attempts is as good as the first
one. -/
structure Better (truth : GroundTruth) (old new : List BenchmarkAttempt) : Prop where
  detected : ∀ d ∈ truth.defects, isDetected old d = true → isDetected new d = true
  precision : (findingPrecision old truth).value ≤ (findingPrecision new truth).value
  reproduced : ∀ d ∈ stableDefects truth,
    (attemptsOf old d.scenarioId).countP (reports d.defectId) ≤
      (attemptsOf new d.scenarioId).countP (reports d.defectId)
  slots : ∀ id, (attemptsOf new id).length = (attemptsOf old id).length
  falsePositives : ∀ id, falsePositives new truth id ≤ falsePositives old truth id

theorem ratio_value_mono {n n' d : ℕ} (h : n ≤ n') : (ratio n d).value ≤ (ratio n' d).value := by
  simp only [ratio]
  split
  · exact le_rfl
  · exact div_le_div_of_nonneg_right (Nat.cast_le.mpr h) (Nat.cast_nonneg d)

theorem ratio_succ_succ {t n : ℕ} (h : t ≤ n) :
    (ratio t n).value ≤ (ratio (t + 1) (n + 1)).value := by
  simp only [ratio, Nat.succ_ne_zero, if_false]
  have hn1 : (0 : ℚ) < ((n + 1 : ℕ) : ℚ) := Nat.cast_pos.mpr (Nat.succ_pos n)
  split
  · next hn =>
    obtain rfl : t = 0 := by omega
    rw [hn, le_div_iff₀ (by norm_num)]
    norm_num
  · next hn =>
    have hn0 : (0 : ℚ) < (n : ℚ) := Nat.cast_pos.mpr (Nat.pos_of_ne_zero hn)
    rw [div_le_div_iff₀ hn0 hn1]
    have : t * (n + 1) ≤ (t + 1) * n := by
      rw [Nat.mul_add, Nat.add_mul]
      omega
    exact_mod_cast this

theorem ratio_pred {t n : ℕ} (h : t ≤ n) : (ratio t (n + 1)).value ≤ (ratio t n).value := by
  simp only [ratio, Nat.succ_ne_zero, if_false]
  have hn1 : (0 : ℚ) < ((n + 1 : ℕ) : ℚ) := Nat.cast_pos.mpr (Nat.succ_pos n)
  split
  · next hn =>
    rw [div_le_one hn1]
    exact_mod_cast Nat.le_succ_of_le h
  · next hn =>
    have hn0 : (0 : ℚ) < (n : ℚ) := Nat.cast_pos.mpr (Nat.pos_of_ne_zero hn)
    rw [div_le_div_iff₀ hn1 hn0]
    have : t * n ≤ t * (n + 1) := Nat.mul_le_mul_left t (Nat.le_succ n)
    exact_mod_cast this

theorem mem_failureWhen {failed : Bool} {code code' : DetectionFailureCode} :
    code ∈ failureWhen failed code' ↔ failed = true ∧ code = code' := by
  unfold failureWhen
  split
  · next h => simp [h]
  · next h => simp [h]

theorem mem_setProperty {record : List (String × ℕ)} {key : String} {g : String → ℕ}
    (hrec : ∀ e ∈ record, e.2 = g e.1) {e : String × ℕ} :
    e ∈ setProperty record key (g key) ↔
      e ∈ record ∨ key ≠ "__proto__" ∧ e = (key, g key) := by
  unfold setProperty
  split
  · next h => simp [h]
  · next hproto =>
    split
    · next hkey =>
      obtain ⟨e₀, he₀, hk₀⟩ := List.mem_map.mp hkey
      have hold : (key, g key) ∈ record := by
        rw [← hk₀, ← hrec e₀ he₀]
        exact he₀
      have hsame : record.map (fun entry => if entry.1 = key then (key, g key) else entry) =
          record := by
        conv_rhs => rw [← List.map_id record]
        refine List.map_congr_left ?_
        intro entry hentry
        split
        · next he =>
          rw [← he, ← hrec entry hentry]
          rfl
        · rfl
      rw [hsame]
      constructor
      · exact Or.inl
      · rintro (h | ⟨-, rfl⟩)
        · exact h
        · exact hold
    · simp [hproto]

/-- A count of the record is one of a normal scenario. -/
theorem mem_falsePositives {e : String × ℕ} :
    e ∈ falsePositivesByNormalMission manifest attempts truth ↔
      ∃ s ∈ manifest.scenarios, s.mode = .normal ∧ s.scenarioId ≠ "__proto__" ∧
        e = (s.scenarioId, falsePositives attempts truth s.scenarioId) := by
  let step := fun (record : List (String × ℕ)) (s : BenchmarkScenario) =>
    if s.mode ≠ .normal then record
    else setProperty record s.scenarioId (falsePositives attempts truth s.scenarioId)
  have hfold : ∀ (scenarios : List BenchmarkScenario) (record : List (String × ℕ)),
      (∀ e ∈ record, e.2 = falsePositives attempts truth e.1) → ∀ e,
      (e ∈ scenarios.foldl step record ↔ e ∈ record ∨ ∃ s ∈ scenarios, s.mode = .normal ∧
        s.scenarioId ≠ "__proto__" ∧
        e = (s.scenarioId, falsePositives attempts truth s.scenarioId)) := by
    intro scenarios
    induction scenarios with
    | nil => simp
    | cons s scenarios ih =>
      intro record hrec e
      have hstep : ∀ e, e ∈ step record s ↔ e ∈ record ∨ s.mode = .normal ∧
          s.scenarioId ≠ "__proto__" ∧
          e = (s.scenarioId, falsePositives attempts truth s.scenarioId) := by
        intro e
        by_cases hmode : s.mode = .normal
        · simp only [step, hmode, ne_eq, not_true_eq_false, if_false, true_and]
          exact mem_setProperty hrec
        · simp [step, hmode]
      have hrec' : ∀ e ∈ step record s, e.2 = falsePositives attempts truth e.1 := by
        intro e he
        obtain he | ⟨-, -, rfl⟩ := (hstep e).mp he
        · exact hrec e he
        · rfl
      rw [List.foldl_cons, ih _ hrec' e, hstep]
      simp only [List.mem_cons, exists_eq_or_imp, or_assoc]
  change e ∈ manifest.scenarios.foldl step [] ↔ _
  rw [hfold manifest.scenarios [] nofun e]
  simp

theorem Better.recall {old new : List BenchmarkAttempt} (h : Better truth old new)
    (defects : List GroundTruthDefect) (hsub : ∀ d ∈ defects, d ∈ truth.defects) :
    defects.countP (isDetected old) ≤ defects.countP (isDetected new) :=
  List.countP_mono_left fun d hd => h.detected d (hsub d hd)

theorem Better.p0 {old new : List BenchmarkAttempt} (h : Better truth old new)
    (hold : ¬ ((p0Recall old truth).denominator = 0 ∨
      (p0Recall old truth).numerator ≠ (p0Recall old truth).denominator ∨
      (p0Recall old truth).value < 1)) :
    ¬ ((p0Recall new truth).denominator = 0 ∨
      (p0Recall new truth).numerator ≠ (p0Recall new truth).denominator ∨
      (p0Recall new truth).value < 1) := by
  unfold p0Recall at hold ⊢
  split at hold
  · exact absurd (Or.inl rfl) hold
  · next hlen =>
    rw [if_neg hlen]
    have hle := h.recall (p0Defects truth) fun d hd => List.mem_of_mem_filter hd
    have hub : (p0Defects truth).countP (isDetected new) ≤ (p0Defects truth).length :=
      List.countP_le_length
    have hv := ratio_value_mono (d := (p0Defects truth).length) hle
    simp only [detectionRecall, ratio] at hold hv ⊢
    rw [not_or, not_or, ne_eq, Decidable.not_not, not_lt] at hold ⊢
    refine ⟨hold.1, by omega, le_trans hold.2.2 hv⟩

/-- What is better fails no threshold that was met. -/
theorem Better.failureCodes {old new : List BenchmarkAttempt} (h : Better truth old new)
    {code : DetectionFailureCode}
    (hc : code ∈ evaluateThresholds (computeMetrics manifest new truth)) :
    code ∈ evaluateThresholds (computeMetrics manifest old truth) := by
  have hknown := ratio_value_mono (d := truth.defects.length)
    (h.recall truth.defects fun _ hd => hd)
  have hstable : (stableReproductionRate old truth).value ≤
      (stableReproductionRate new truth).value := by
    simp only [stableReproductionRate, h.slots]
    exact ratio_value_mono (List.sum_le_sum h.reproduced)
  simp only [evaluateThresholds, List.mem_append, mem_failureWhen, decide_eq_true_eq] at hc ⊢
  obtain (((⟨hf, rfl⟩ | ⟨hf, rfl⟩) | ⟨hf, rfl⟩) | ⟨hf, rfl⟩) | ⟨hf, rfl⟩ := hc
  · refine Or.inl (Or.inl (Or.inl (Or.inl ⟨?_, rfl⟩)))
    by_contra hold
    exact h.p0 hold hf
  · exact Or.inl (Or.inl (Or.inl (Or.inr ⟨lt_of_le_of_lt hknown hf, rfl⟩)))
  · exact Or.inl (Or.inl (Or.inr ⟨lt_of_le_of_lt h.precision hf, rfl⟩))
  · exact Or.inl (Or.inr ⟨lt_of_le_of_lt hstable hf, rfl⟩)
  · refine Or.inr ⟨?_, rfl⟩
    obtain ⟨e, he, hlt⟩ := List.any_eq_true.mp hf
    obtain ⟨s, hs, hmode, hproto, rfl⟩ := mem_falsePositives.mp he
    refine List.any_eq_true.mpr ⟨(s.scenarioId, Benchmark.falsePositives old truth s.scenarioId),
      mem_falsePositives.mpr ⟨s, hs, hmode, hproto, rfl⟩, ?_⟩
    have hle := h.falsePositives s.scenarioId
    have hlt := of_decide_eq_true hlt
    exact decide_eq_true (lt_of_lt_of_le hlt hle)

/-- No failure code is added, and a passed gate does not fail. -/
def NoWorse (old new : Except BenchmarkError DetectionBenchmarkReport) : Prop :=
  ∀ report, old = .ok report → ∃ report', new = .ok report' ∧
    (∀ code ∈ report'.gate.failureCodes, code ∈ report.gate.failureCodes) ∧
    (report.gate.status = .passed → report'.gate.status ≠ .failed)

theorem passed_iff {profileHash : String} :
    (reportOf P manifest attempts truth options profileHash).gate.status = .passed ↔
      profileHash = referenceProfileSha256 P manifest.referenceProfile ∧
        evaluateThresholds (computeMetrics manifest attempts truth) = [] := by
  simp only [reportOf, gateOf]
  split
  · next h =>
    have hne : profileHash ≠ referenceProfileSha256 P manifest.referenceProfile := by
      intro he
      rw [if_pos he] at h
      cases h
    simp [hne]
  · next h =>
    have he : profileHash = referenceProfileSha256 P manifest.referenceProfile := by
      by_contra hne
      rw [if_neg hne] at h
      cases h
    simp only [List.length_eq_zero_iff, he, true_and]
    split <;> simp_all

theorem failed_iff {profileHash : String} :
    (reportOf P manifest attempts truth options profileHash).gate.status = .failed ↔
      profileHash = referenceProfileSha256 P manifest.referenceProfile ∧
        evaluateThresholds (computeMetrics manifest attempts truth) ≠ [] := by
  simp only [reportOf, gateOf]
  split
  · next h =>
    have hne : profileHash ≠ referenceProfileSha256 P manifest.referenceProfile := by
      intro he
      rw [if_pos he] at h
      cases h
    simp [hne]
  · next h =>
    have he : profileHash = referenceProfileSha256 P manifest.referenceProfile := by
      by_contra hne
      rw [if_neg hne] at h
      cases h
    simp only [List.length_eq_zero_iff, he, true_and]
    split <;> simp_all

/-! ## A change in the findings of one attempt -/

section Change

variable {pre post : List BenchmarkAttempt} {a : BenchmarkAttempt}
  {xs ys : List DetectionFinding} {f : DetectionFinding}

def BenchmarkAttempt.withFindings (a : BenchmarkAttempt) (fs : List DetectionFinding) :
    BenchmarkAttempt := { a with findings := fs }

/-- The attempts `pre`, `a` with the given findings, and `post`. -/
def including (pre : List BenchmarkAttempt) (a : BenchmarkAttempt) (fs : List DetectionFinding)
    (post : List BenchmarkAttempt) : List BenchmarkAttempt :=
  pre ++ a.withFindings fs :: post

theorem complete_including {fs fs' : List DetectionFinding}
    (h : Complete manifest (including pre a fs post)) :
    Complete manifest (including pre a fs' post) where
  valid b hb := by
    obtain hb | hb := List.mem_append.mp hb
    · exact h.valid b (List.mem_append_left _ hb)
    · obtain rfl | hb := List.mem_cons.mp hb
      · exact h.valid (a.withFindings fs) (List.mem_append_right _ List.mem_cons_self)
      · exact h.valid b (List.mem_append_right _ (List.mem_cons_of_mem _ hb))
  nodup := by
    have hn := h.nodup
    rw [including, List.map_append, List.map_cons] at hn ⊢
    exact hn
  length_eq := by
    have hl := h.length_eq
    rw [including, List.length_append, List.length_cons] at hl ⊢
    exact hl

theorem profile_including {fs fs' : List DetectionFinding} {hash : String}
    (h : assertSingleProfile (including pre a fs post) = .ok hash) :
    assertSingleProfile (including pre a fs' post) = .ok hash := by
  rw [profile_ok_iff] at h ⊢
  refine ⟨by simp [including], ?_⟩
  intro b hb
  obtain hb | hb := List.mem_append.mp hb
  · exact h.2 b (List.mem_append_left _ hb)
  · obtain rfl | hb := List.mem_cons.mp hb
    · exact h.2 (a.withFindings fs) (List.mem_append_right _ List.mem_cons_self)
    · exact h.2 b (List.mem_append_right _ (List.mem_cons_of_mem _ hb))

theorem findingsOf_including (fs : List DetectionFinding) :
    findingsOf (including pre a fs post) =
      findingsOf pre ++ (fs.map fun f => (a.scenarioId, f)) ++ findingsOf post := by
  simp [findingsOf, including, BenchmarkAttempt.withFindings]

theorem countP_findingsOf (p : String × DetectionFinding → Bool) :
    (findingsOf (including pre a (xs ++ f :: ys) post)).countP p =
      (findingsOf (including pre a (xs ++ ys) post)).countP p +
        if p (a.scenarioId, f) then 1 else 0 := by
  simp only [findingsOf_including, List.map_append, List.map_cons, List.countP_append,
    List.countP_cons]
  omega

theorem attemptsOf_including (fs : List DetectionFinding) (id : String) :
    attemptsOf (including pre a fs post) id = attemptsOf pre id ++
      (if a.scenarioId = id then [a.withFindings fs] else []) ++ attemptsOf post id := by
  have hid : (a.withFindings fs).scenarioId = a.scenarioId := rfl
  simp only [attemptsOf, including, List.filter_append, List.filter_cons, hid]
  split <;> simp_all

theorem isDetected_including {d : GroundTruthDefect} :
    isDetected (including pre a (xs ++ f :: ys) post) d =
      (isDetected (including pre a (xs ++ ys) post) d ||
        decide (defectKey a.scenarioId f.defectId = defectKey d.scenarioId d.defectId)) := by
  rw [isDetected, isDetected, ← Bool.decide_or]
  refine decide_eq_decide.mpr ?_
  simp only [findingsOf_including, List.map_append, List.map_cons, List.mem_append,
    List.mem_cons, eq_comm (a := defectKey a.scenarioId f.defectId)]
  tauto

theorem length_attemptsOf_including (fs fs' : List DetectionFinding) (id : String) :
    (attemptsOf (including pre a fs post) id).length =
      (attemptsOf (including pre a fs' post) id).length := by
  simp only [attemptsOf_including, List.length_append]
  split <;> rfl

theorem reproduced_including (d : GroundTruthDefect) :
    (attemptsOf (including pre a (xs ++ ys) post) d.scenarioId).countP (reports d.defectId) ≤
      (attemptsOf (including pre a (xs ++ f :: ys) post) d.scenarioId).countP
        (reports d.defectId) := by
  simp only [attemptsOf_including, List.countP_append]
  split
  · have hmono : reports d.defectId (a.withFindings (xs ++ ys)) = true →
        reports d.defectId (a.withFindings (xs ++ f :: ys)) = true := by
      simp only [reports, BenchmarkAttempt.withFindings, List.any_append, List.any_cons,
        Bool.or_eq_true]
      tauto
    have : List.countP (reports d.defectId) [a.withFindings (xs ++ ys)] ≤
        List.countP (reports d.defectId) [a.withFindings (xs ++ f :: ys)] := by
      simp only [List.countP_singleton]
      split
      · next h => simp [hmono h]
      · omega
    omega
  · exact Nat.le_refl _

theorem reproduced_including_eq {d : GroundTruthDefect}
    (h : ¬ (a.scenarioId = d.scenarioId ∧ f.defectId = d.defectId)) :
    (attemptsOf (including pre a (xs ++ f :: ys) post) d.scenarioId).countP
        (reports d.defectId) =
      (attemptsOf (including pre a (xs ++ ys) post) d.scenarioId).countP
        (reports d.defectId) := by
  simp only [attemptsOf_including, List.countP_append]
  split
  · next hs =>
    have hne : f.defectId ≠ d.defectId := fun he => h ⟨hs, he⟩
    simp [reports, BenchmarkAttempt.withFindings, hne, List.countP_singleton]
  · rfl

theorem falsePositives_including (id : String) :
    falsePositives (including pre a (xs ++ f :: ys) post) truth id =
      falsePositives (including pre a (xs ++ ys) post) truth id +
        if a.scenarioId = id ∧ (isHigh f && !isKnown truth id f.defectId) = true then 1 else 0 := by
  simp only [falsePositives, attemptsOf_including, List.flatMap_append, List.countP_append]
  by_cases hid : a.scenarioId = id
  · simp only [hid, if_true, BenchmarkAttempt.withFindings, List.flatMap_singleton,
      List.countP_append, List.countP_cons, true_and]
    omega
  · simp [hid]

/-- A further finding of a seeded defect is for the better. -/
theorem better_of_detection
    (hknown : isKnown truth a.scenarioId f.defectId = true) :
    Better truth (including pre a (xs ++ ys) post) (including pre a (xs ++ f :: ys) post) where
  detected d _ h := by
    rw [isDetected_including, h]
    rfl
  precision := by
    simp only [findingPrecision, countP_findingsOf, hknown, Bool.and_true]
    set t := (findingsOf (including pre a (xs ++ ys) post)).countP fun f =>
      isHigh f.2 && isKnown truth f.1 f.2.defectId
    set n := (findingsOf (including pre a (xs ++ ys) post)).countP fun f => isHigh f.2
    have hle : t ≤ n := List.countP_mono_left fun f _ h => (Bool.and_eq_true _ _ ▸ h).1
    split
    · exact ratio_succ_succ hle
    · exact le_rfl
  reproduced d _ := reproduced_including d
  slots id := length_attemptsOf_including _ _ id
  falsePositives id := by
    rw [falsePositives_including]
    split
    · next h =>
      obtain ⟨rfl, h⟩ := h
      simp [hknown] at h
    · exact Nat.le_refl _

/-- The removal of a finding whose key is that of no seeded defect is for the better. -/
theorem better_of_removal (hhigh : isHigh f = true)
    (hunknown : isKnown truth a.scenarioId f.defectId = false)
    (hplace : ∀ d ∈ truth.defects, ¬ (a.scenarioId = d.scenarioId ∧ f.defectId = d.defectId)) :
    Better truth (including pre a (xs ++ f :: ys) post) (including pre a (xs ++ ys) post) where
  detected d hd h := by
    rw [isDetected_including, Bool.or_eq_true] at h
    obtain h | h := h
    · exact h
    · have hkey := of_decide_eq_true h
      have hk : defectKey a.scenarioId f.defectId ∈ knownDefectKeys truth :=
        List.mem_map.mpr ⟨d, hd, hkey.symm⟩
      exact absurd hk (of_decide_eq_false hunknown)
  precision := by
    simp only [findingPrecision, countP_findingsOf, hunknown, hhigh, Bool.and_false, if_true,
      Bool.false_eq_true, if_false, Nat.add_zero]
    exact ratio_pred
      (List.countP_mono_left fun f _ h => (Bool.and_eq_true _ _ ▸ h).1)
  reproduced d hd := le_of_eq (reproduced_including_eq (hplace d (List.mem_of_mem_filter hd)))
  slots id := length_attemptsOf_including _ _ id
  falsePositives id := by
    rw [falsePositives_including]
    exact Nat.le_add_right _ _

theorem noWorse_of_better {fs fs' : List DetectionFinding}
    (h : Better truth (including pre a fs post) (including pre a fs' post)) :
    NoWorse (scoreBenchmark P manifest (including pre a fs post) truth options)
      (scoreBenchmark P manifest (including pre a fs' post) truth options) := by
  intro report hs
  obtain ⟨hc, hm, hash, hp, rfl⟩ := score_eq_ok.mp hs
  refine ⟨_, score_eq_ok.mpr ⟨hc, complete_including hm, hash, profile_including hp, rfl⟩,
    fun _ => h.failureCodes, ?_⟩
  rw [passed_iff, ne_eq, failed_iff]
  rintro ⟨-, hnil⟩ ⟨-, hne⟩
  obtain ⟨code, hcode⟩ := List.exists_mem_of_ne_nil _ hne
  have := h.failureCodes hcode
  rw [hnil] at this
  cases this

end Change

end Qualigence.Benchmark
