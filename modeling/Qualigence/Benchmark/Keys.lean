import Mathlib.Algebra.Group.Action.Defs
import Qualigence.Benchmark.Laws

/-! # When the laws of the score hold

The key of a seeded defect joins two identifiers by a NUL character, and an identifier may contain
one. A finding in another scenario can then have the key of a defect. The laws of the score hold
of a manifest and a ground truth just when no such finding can matter.
-/

namespace Qualigence.Benchmark

open Protocol

/-- A defect is seeded into the scenario under the identifier. -/
def Seeded (truth : GroundTruth) (scenarioId defectId : String) : Prop :=
  (scenarioId, defectId) ∈ truth.defects.map GroundTruthDefect.place

/-- The laws of the score for one manifest and ground truth: over all attempts and options. -/
structure ScoringLaws (P : Platform) (manifest : DetectionBenchmarkManifest)
    (truth : GroundTruth) : Prop where
  /-- The order of the attempts does not matter. -/
  order : ∀ attempts attempts' options, attempts.Perm attempts' →
    SameOutcome (scoreBenchmark P manifest attempts truth options)
      (scoreBenchmark P manifest attempts' truth options)
  /-- A further detection of a seeded defect makes nothing worse. -/
  detection : ∀ pre a xs f ys post options, Seeded truth a.scenarioId f.defectId →
    NoWorse (scoreBenchmark P manifest (including pre a (xs ++ ys) post) truth options)
      (scoreBenchmark P manifest (including pre a (xs ++ f :: ys) post) truth options)
  /-- The removal of a high-confidence false finding makes nothing worse. -/
  removal : ∀ pre a xs f ys post options, f.confidence = .high →
    ¬ Seeded truth a.scenarioId f.defectId →
    NoWorse (scoreBenchmark P manifest (including pre a (xs ++ f :: ys) post) truth options)
      (scoreBenchmark P manifest (including pre a (xs ++ ys) post) truth options)
  /-- No attempt of a passed benchmark is missing or unverified. -/
  verified : ∀ attempts options report,
    scoreBenchmark P manifest attempts truth options = .ok report →
    report.gate.status = .passed →
    (∀ id ∈ manifest.scenarioIds, ∀ i < manifest.referenceProfile.repetitions,
      ∃ a ∈ attempts, a.scenarioId = id ∧ a.repetition = ((i + 1 : ℕ) : ℚ)) ∧
    ∀ a ∈ attempts, a.profileSha256 = referenceProfileSha256 P manifest.referenceProfile
  /-- A passed benchmark has detected every P0 defect. -/
  p0 : ∀ attempts options report,
    scoreBenchmark P manifest attempts truth options = .ok report →
    report.gate.status = .passed → ∀ d ∈ truth.defects, d.severity = .p0 →
    ∃ a ∈ attempts, a.scenarioId = d.scenarioId ∧ ∃ f ∈ a.findings, f.defectId = d.defectId

/-- Some list of attempts is scored. -/
def Scorable (manifest : DetectionBenchmarkManifest) (truth : GroundTruth) : Prop :=
  assertGroundTruthConsistent manifest truth = .ok () ∧
    0 < manifest.referenceProfile.repetitions

/-- No finding that is not one of a seeded defect has the key of one, and no P0 defect shares its
key with another defect, unless it is one of at most three stable defects: the rate of the stable
reproductions then shows that it was missed. -/
def KeysApart (manifest : DetectionBenchmarkManifest) (truth : GroundTruth) : Prop :=
  (∀ id ∈ manifest.scenarioIds, ∀ defectId, ∀ d ∈ truth.defects,
    defectKey id defectId = defectKey d.scenarioId d.defectId → Seeded truth id defectId) ∧
  ∀ d ∈ truth.defects, d.severity = .p0 →
    (d.stable = false ∨ 4 ≤ (stableDefects truth).length) →
    ∀ e ∈ truth.defects, defectKey e.scenarioId e.defectId = defectKey d.scenarioId d.defectId →
      e.place = d.place

variable {P : Platform} {manifest : DetectionBenchmarkManifest} {truth : GroundTruth}
  {options : ScoreOptions} {attempts : List BenchmarkAttempt}
  {report : DetectionBenchmarkReport}

theorem isKnown_of_seeded {id defectId : String} (h : Seeded truth id defectId) :
    isKnown truth id defectId = true := by
  obtain ⟨d, hd, he⟩ := List.mem_map.mp h
  cases he
  exact decide_eq_true (List.mem_map.mpr ⟨d, hd, rfl⟩)

theorem scorable_of_score (h : scoreBenchmark P manifest attempts truth options = .ok report) :
    Scorable manifest truth := by
  obtain ⟨hc, hm, hash, hp, -⟩ := score_eq_ok.mp h
  refine ⟨hc, ?_⟩
  obtain ⟨a, ha⟩ := List.exists_mem_of_ne_nil _ (profile_ok_iff.mp hp).1
  obtain ⟨i, hi, -⟩ := (hm.valid a ha).repetition
  omega

/-! ## The laws follow -/

theorem sum_le_of_zero {α : Type} {g : α → ℕ} (bound : ℕ) {xs : List α} {x : α} (hx : x ∈ xs)
    (hzero : g x = 0) (hle : ∀ y ∈ xs, g y ≤ bound) :
    (xs.map g).sum + bound ≤ bound * xs.length := by
  obtain ⟨ys, zs, rfl⟩ := List.append_of_mem hx
  have hsum : ∀ l : List α, (∀ y ∈ l, g y ≤ bound) → (l.map g).sum ≤ bound * l.length := by
    intro l hl
    have := List.sum_le_card_nsmul (l.map g) bound (by
      intro n hn
      obtain ⟨y, hy, rfl⟩ := List.mem_map.mp hn
      exact hl y hy)
    rw [List.length_map, smul_eq_mul, Nat.mul_comm] at this
    exact this
  have hy := hsum ys fun y h => hle y (List.mem_append_left _ h)
  have hz := hsum zs fun y h => hle y (List.mem_append_right _ (List.mem_cons_of_mem _ h))
  simp only [List.map_append, List.map_cons, List.sum_append, List.sum_cons, hzero,
    List.length_append, List.length_cons, Nat.mul_add, Nat.mul_one]
  omega

/-- When a stable defect is missed in its own scenario, at most three stable defects are too few
to reach the rate that the gate asks for. -/
theorem stable_rate_of_missed (hm : Complete manifest attempts) (hs : Scorable manifest truth)
    {d : GroundTruthDefect} (hd : d ∈ stableDefects truth)
    (hlen : (stableDefects truth).length ≤ 3)
    (hmissed : (attemptsOf attempts d.scenarioId).countP (reports d.defectId) = 0) :
    (stableReproductionRate attempts truth).value < 7 / 10 := by
  have hin : ∀ e ∈ stableDefects truth, (attemptsOf attempts e.scenarioId).length =
      manifest.referenceProfile.repetitions := fun e he =>
    hm.length_attemptsOf ((places_of_consistent hs.1).1 e (List.mem_of_mem_filter he))
  have hslots : ((stableDefects truth).map fun d =>
      (attemptsOf attempts d.scenarioId).length).sum =
      manifest.referenceProfile.repetitions * (stableDefects truth).length := by
    rw [List.map_congr_left hin, List.map_const', List.sum_replicate, smul_eq_mul, Nat.mul_comm]
  have hsum := sum_le_of_zero manifest.referenceProfile.repetitions
    (g := fun d : GroundTruthDefect =>
      (attemptsOf attempts d.scenarioId).countP (reports d.defectId)) hd hmissed
    fun e he => le_trans List.countP_le_length (le_of_eq (hin e he))
  have hpos := List.length_pos_of_mem hd
  have hrep := hs.2
  simp only [stableReproductionRate, hslots]
  generalize (stableDefects truth).length = k at *
  generalize manifest.referenceProfile.repetitions = r at *
  generalize ((stableDefects truth).map fun d : GroundTruthDefect =>
    (attemptsOf attempts d.scenarioId).countP (reports d.defectId)).sum = n at *
  have hne : r * k ≠ 0 := Nat.mul_ne_zero (by omega) (by omega)
  simp only [ratio, hne, if_false]
  rw [div_lt_div_iff₀ (Nat.cast_pos.mpr (Nat.pos_of_ne_zero hne)) (by norm_num)]
  have : n * 10 < 7 * (r * k) := by
    obtain rfl | rfl | rfl : k = 1 ∨ k = 2 ∨ k = 3 := by omega
    all_goals omega
  exact_mod_cast this

theorem not_mem_of_passed (hs : scoreBenchmark P manifest attempts truth options = .ok report)
    (hp : report.gate.status = .passed) (code : DetectionFailureCode) :
    code ∉ evaluateThresholds (computeMetrics manifest attempts truth) := by
  obtain ⟨-, -, hash, -, rfl⟩ := score_eq_ok.mp hs
  rw [(passed_iff.mp hp).2]
  exact List.not_mem_nil

/-- In a passed benchmark every P0 defect was detected by its key. -/
theorem detected_of_passed (hs : scoreBenchmark P manifest attempts truth options = .ok report)
    (hp : report.gate.status = .passed) {d : GroundTruthDefect} (hd : d ∈ truth.defects)
    (hsev : d.severity = .p0) : isDetected attempts d = true := by
  have hcode := not_mem_of_passed hs hp .p0RecallBelowMinimum
  simp only [evaluateThresholds, List.mem_append, mem_failureWhen, decide_eq_true_eq,
    not_or] at hcode
  have hmem : d ∈ p0Defects truth := List.mem_filter.mpr ⟨hd, decide_eq_true hsev⟩
  have hlen : (p0Defects truth).length ≠ 0 := (List.length_pos_of_mem hmem).ne'
  have hnum : (p0Recall attempts truth).numerator = (p0Recall attempts truth).denominator := by
    by_contra hne
    exact hcode.1.1.1.1 ⟨Or.inr (Or.inl hne), trivial⟩
  rw [p0Recall, if_neg hlen] at hnum
  exact List.countP_eq_length.mp hnum d hmem

theorem laws_of_keysApart (h : Scorable manifest truth → KeysApart manifest truth) :
    ScoringLaws P manifest truth where
  order attempts attempts' options hp := score_perm hp
  detection pre a xs f ys post options hseed :=
    noWorse_of_better (better_of_detection (isKnown_of_seeded hseed))
  removal pre a xs f ys post options hhigh hseed := by
    intro report hs
    obtain ⟨hapart, -⟩ := h (scorable_of_score hs)
    obtain ⟨-, hm, -⟩ := score_eq_ok.mp hs
    have hid : a.scenarioId ∈ manifest.scenarioIds :=
      (hm.valid (a.withFindings (xs ++ f :: ys))
        (List.mem_append_right _ List.mem_cons_self)).scenarioId
    have hunknown : isKnown truth a.scenarioId f.defectId = false := by
      refine decide_eq_false ?_
      intro hk
      obtain ⟨d, hd, he⟩ := List.mem_map.mp hk
      exact hseed (hapart _ hid _ d hd he.symm)
    refine noWorse_of_better (better_of_removal (decide_eq_true hhigh) hunknown ?_) report hs
    rintro d hd ⟨hs, hf⟩
    exact hseed (List.mem_map.mpr ⟨d, hd, by rw [hs, hf]; rfl⟩)
  verified attempts options report hs hp := by
    obtain ⟨-, hm, hash, hprof, rfl⟩ := score_eq_ok.mp hs
    refine ⟨fun id hid i hi => hm.exists_attempt hid hi, ?_⟩
    intro a ha
    rw [(profile_ok_iff.mp hprof).2 a ha]
    exact (passed_iff.mp hp).1
  p0 attempts options report hs hp d hd hsev := by
    have hscor := scorable_of_score hs
    obtain ⟨hapart, hp0⟩ := h hscor
    obtain ⟨-, hm, -⟩ := score_eq_ok.mp hs
    by_contra hmiss
    obtain ⟨⟨id, f⟩, hf, hkey⟩ := List.mem_map.mp
      (of_decide_eq_true (detected_of_passed hs hp hd hsev))
    obtain ⟨a, ha, hfa⟩ := List.mem_flatMap.mp hf
    obtain ⟨f, hfa, he⟩ := List.mem_map.mp hfa
    cases he
    obtain ⟨e, he, hplace⟩ := List.mem_map.mp
      (hapart _ (hm.valid a ha).scenarioId f.defectId d hd hkey)
    have hne : e.place ≠ d.place := by
      intro hpl
      rw [hplace] at hpl
      exact hmiss ⟨a, ha, congrArg Prod.fst hpl, f, hfa, congrArg Prod.snd hpl⟩
    have hekey : defectKey e.scenarioId e.defectId = defectKey d.scenarioId d.defectId := by
      rw [← hkey]
      rw [GroundTruthDefect.place, Prod.mk.injEq] at hplace
      rw [hplace.1, hplace.2]
    have hfew : ¬ (d.stable = false ∨ 4 ≤ (stableDefects truth).length) :=
      fun hmany => hne (hp0 d hd hsev hmany e he hekey)
    rw [not_or, Bool.not_eq_false] at hfew
    have hstable : d ∈ stableDefects truth := List.mem_filter.mpr ⟨hd, hfew.1⟩
    have hmissed : (attemptsOf attempts d.scenarioId).countP (reports d.defectId) = 0 := by
      refine List.countP_eq_zero.mpr ?_
      intro b hb hr
      obtain ⟨hb, hscen⟩ := List.mem_filter.mp hb
      obtain ⟨g, hg, hge⟩ := List.any_eq_true.mp hr
      exact hmiss ⟨b, hb, of_decide_eq_true hscen, g, hg, of_decide_eq_true hge⟩
    have hrate := stable_rate_of_missed hm hscor hstable (by omega) hmissed
    have hcode := not_mem_of_passed hs hp .stableReproductionRateBelowMinimum
    simp only [evaluateThresholds, List.mem_append, mem_failureWhen, decide_eq_true_eq,
      not_or] at hcode
    exact hcode.1.2 ⟨hrate, trivial⟩

/-! ## The laws need it -/

section Matrix

variable (P manifest) (found : String → List DetectionFinding)

/-- The attempt at a repetition of a scenario, with findings that depend on the scenario. -/
def attemptAt (id : String) (i : ℕ) : BenchmarkAttempt where
  attemptId := ""
  profileSha256 := referenceProfileSha256 P manifest.referenceProfile
  scenarioId := id
  mode := (scenarioMode manifest id).getD .normal
  repetition := ((i + 1 : ℕ) : ℚ)
  findings := found id

/-- An attempt of the reference profile for every slot. -/
def fullMatrix : List BenchmarkAttempt :=
  manifest.scenarioIds.dedup.flatMap fun id =>
    (List.range manifest.referenceProfile.repetitions).map (attemptAt P manifest found id)

variable {P manifest found}

theorem mem_fullMatrix {a : BenchmarkAttempt} : a ∈ fullMatrix P manifest found ↔
    ∃ id ∈ manifest.scenarioIds, ∃ i < manifest.referenceProfile.repetitions,
      attemptAt P manifest found id i = a := by
  simp [fullMatrix, List.mem_flatMap, List.mem_dedup]

theorem slot_attemptAt (id : String) (i : ℕ) :
    (attemptAt P manifest found id i).slot = slotKey id (i + 1) := slot_of_repetition rfl

theorem complete_fullMatrix : Complete manifest (fullMatrix P manifest found) := by
  have hslots : (fullMatrix P manifest found).map (·.slot) =
      manifest.scenarioIds.dedup.flatMap fun id =>
        (List.range manifest.referenceProfile.repetitions).map fun i => slotKey id (i + 1) := by
    simp only [fullMatrix, List.map_flatMap, List.map_map, Function.comp_def, slot_attemptAt]
  have hnodup : ((fullMatrix P manifest found).map (·.slot)).Nodup := by
    rw [hslots, List.nodup_flatMap]
    refine ⟨?_, ?_⟩
    · intro id _
      refine List.nodup_range.map ?_
      intro i j hij
      have := (slotKey_inj hij).2
      omega
    · refine (List.nodup_dedup manifest.scenarioIds).imp ?_
      intro id id' hne
      refine List.disjoint_left.mpr ?_
      intro slot h h'
      obtain ⟨i, -, rfl⟩ := List.mem_map.mp h
      obtain ⟨j, -, hj⟩ := List.mem_map.mp h'
      exact hne (slotKey_inj hj).1.symm
  refine ⟨?_, hnodup, ?_⟩
  · intro a ha
    obtain ⟨id, hid, i, hi, rfl⟩ := mem_fullMatrix.mp ha
    obtain ⟨s, hs, rfl⟩ := List.mem_map.mp hid
    have hmode : (scenarioMode manifest s.scenarioId).isSome := by
      rw [scenarioMode, Option.isSome_map, List.find?_isSome]
      exact ⟨s, List.mem_reverse.mpr hs, decide_eq_true rfl⟩
    obtain ⟨mode, hmode⟩ := Option.isSome_iff_exists.mp hmode
    refine ⟨?_, ?_⟩
    · simp only [attemptAt, hmode, Option.getD_some]
    · have hlo : ¬ ((i + 1 : ℕ) : ℚ) < 1 := not_lt.mpr (by exact_mod_cast Nat.succ_pos i)
      have hhi : ¬ (manifest.referenceProfile.repetitions : ℚ) < ((i + 1 : ℕ) : ℚ) :=
        not_lt.mpr (by exact_mod_cast hi)
      simp only [validRepetition, attemptAt, hlo, hhi, Rat.den_natCast, ne_eq, not_true_eq_false,
        decide_false, Bool.or_self, Bool.not_false]
  · have hperm : ((fullMatrix P manifest found).map (·.slot)).Perm (expectedSlots manifest) := by
      refine (List.perm_ext_iff_of_nodup hnodup (List.nodup_dedup _)).mpr ?_
      intro slot
      change _ ↔ slot ∈ expectedSlots manifest
      rw [mem_expectedSlots, hslots]
      simp [List.mem_flatMap, List.mem_dedup]
    have hlen := hperm.length_eq
    rwa [List.length_map] at hlen

theorem profile_of_fullMatrix (hs : Scorable manifest truth)
    (hid : ∃ id, id ∈ manifest.scenarioIds) :
    assertSingleProfile (fullMatrix P manifest found) =
      .ok (referenceProfileSha256 P manifest.referenceProfile) := by
  rw [profile_ok_iff]
  obtain ⟨id, hid⟩ := hid
  refine ⟨List.ne_nil_of_mem (mem_fullMatrix.mpr ⟨id, hid, 0, hs.2, rfl⟩), ?_⟩
  intro a ha
  obtain ⟨id, -, i, -, rfl⟩ := mem_fullMatrix.mp ha
  rfl

/-- Every defect found in its scenario is detected. -/
theorem detected_fullMatrix (hs : Scorable manifest truth) {d : GroundTruthDefect}
    (hd : d ∈ truth.defects) (hfound : ∃ f ∈ found d.scenarioId, f.defectId = d.defectId) :
    isDetected (fullMatrix P manifest found) d = true := by
  obtain ⟨f, hf, he⟩ := hfound
  refine decide_eq_true (List.mem_map.mpr ⟨(d.scenarioId, f), ?_, by rw [he]⟩)
  refine List.mem_flatMap.mpr ⟨attemptAt P manifest found d.scenarioId 0, ?_, ?_⟩
  · exact mem_fullMatrix.mpr ⟨_, (places_of_consistent hs.1).1 d hd, 0, hs.2, rfl⟩
  · exact List.mem_map.mpr ⟨f, hf, rfl⟩

theorem reproduced_fullMatrix (hs : Scorable manifest truth) {d : GroundTruthDefect}
    (hd : d ∈ truth.defects) (hfound : ∃ f ∈ found d.scenarioId, f.defectId = d.defectId) :
    (attemptsOf (fullMatrix P manifest found) d.scenarioId).countP (reports d.defectId) =
      manifest.referenceProfile.repetitions := by
  have hcomplete : Complete manifest (fullMatrix P manifest found) := complete_fullMatrix
  have hlen := hcomplete.length_attemptsOf ((places_of_consistent hs.1).1 d hd)
  rw [← hlen, List.countP_eq_length]
  intro a ha
  obtain ⟨ha, hscen⟩ := List.mem_filter.mp ha
  obtain ⟨id, -, i, -, rfl⟩ := mem_fullMatrix.mp ha
  obtain rfl : id = d.scenarioId := of_decide_eq_true hscen
  obtain ⟨f, hf, he⟩ := hfound
  exact List.any_eq_true.mpr ⟨f, hf, decide_eq_true he⟩

end Matrix

/-- Some text is not the identifier of a finding with a known key: one that is too long. -/
theorem exists_unknown (truth : GroundTruth) (id : String) :
    ∃ defectId, isKnown truth id defectId = false := by
  let size := ((knownDefectKeys truth).map fun key => key.toList.length).sum
  refine ⟨String.ofList (List.replicate size 'x'), decide_eq_false ?_⟩
  intro hk
  have hle : (defectKey id (String.ofList (List.replicate size 'x'))).toList.length ≤ size :=
    List.le_sum_of_mem (List.mem_map.mpr ⟨_, hk, rfl⟩)
  rw [defectKey, toList_joined, List.length_append, List.length_cons, String.toList_ofList,
    List.length_replicate] at hle
  omega

/-! ### A false finding with a known key -/

def noOptions : ScoreOptions := ⟨none, none, none⟩

/-- Three of five high-confidence findings suffice for the precision, two of four do not. A false
finding that counts as known can therefore not be removed for free. -/
theorem removal_fails (hs : Scorable manifest truth) {id defectId : String}
    (hid : id ∈ manifest.scenarioIds) (hknown : isKnown truth id defectId = true)
    (hlaw : ScoringLaws P manifest truth) : Seeded truth id defectId := by
  by_contra hseed
  obtain ⟨junk, hjunk⟩ := exists_unknown truth id
  let blank := fullMatrix P manifest fun _ => []
  have hblank : Complete manifest blank := complete_fullMatrix
  obtain ⟨a, ha, hscen, -⟩ := hblank.exists_attempt hid hs.2
  obtain ⟨pre, post, hsplit⟩ := List.append_of_mem ha
  have hempty : ∀ b ∈ blank, b.findings = [] := by
    intro b hb
    obtain ⟨_, -, _, -, rfl⟩ := mem_fullMatrix.mp hb
    rfl
  have hnone : ∀ l : List BenchmarkAttempt, (∀ b ∈ l, b ∈ blank) → findingsOf l = [] := by
    intro l hl
    refine List.flatMap_eq_nil_iff.mpr ?_
    intro b hb
    rw [hempty b (hl b hb), List.map_nil]
  have hpre : findingsOf pre = [] := hnone pre fun b hb => by
    rw [hsplit]
    exact List.mem_append_left _ hb
  have hpost : findingsOf post = [] := hnone post fun b hb => by
    rw [hsplit]
    exact List.mem_append_right _ (List.mem_cons_of_mem _ hb)
  have hself : blank = including pre a [] post := by
    rw [hsplit, including, BenchmarkAttempt.withFindings, ← hempty a ha]
  have hprof : assertSingleProfile blank =
      .ok (referenceProfileSha256 P manifest.referenceProfile) :=
    profile_of_fullMatrix hs ⟨id, hid⟩
  rw [hself] at hblank hprof
  let f : DetectionFinding := ⟨defectId, .high⟩
  let j : DetectionFinding := ⟨junk, .high⟩
  have hscore : ∀ fs, scoreBenchmark P manifest (including pre a fs post) truth noOptions =
      .ok (reportOf P manifest (including pre a fs post) truth noOptions
        (referenceProfileSha256 P manifest.referenceProfile)) := fun fs =>
    score_eq_ok.mpr ⟨hs.1, complete_including hblank, _, profile_including hprof, rfl⟩
  have hprecision : ∀ fs, findingPrecision (including pre a fs post) truth =
      ratio (fs.countP fun f => isHigh f && isKnown truth id f.defectId) (fs.countP isHigh) := by
    intro fs
    rw [findingPrecision, findingsOf_including, hpre, hpost, List.nil_append, List.append_nil,
      List.countP_map, List.countP_map, hscen]
    rfl
  have hcode : ∀ fs, DetectionFailureCode.findingPrecisionBelowMinimum ∈ evaluateThresholds
      (computeMetrics manifest (including pre a fs post) truth) ↔
      (findingPrecision (including pre a fs post) truth).value < 3 / 5 := by
    intro fs
    simp only [evaluateThresholds, List.mem_append, mem_failureWhen, reduceCtorEq, and_false,
      or_false, false_or, and_true]
    exact decide_eq_true_iff
  have hscen' : a.scenarioId = id := hscen
  obtain ⟨report', hreport', hcodes, -⟩ := hlaw.removal pre a [] f [f, f, j, j] post noOptions rfl
    (by rw [hscen']; exact hseed) _ (hscore _)
  rw [hscore] at hreport'
  cases hreport'
  have hnew : DetectionFailureCode.findingPrecisionBelowMinimum ∈ evaluateThresholds
      (computeMetrics manifest (including pre a ([] ++ [f, f, j, j]) post) truth) := by
    rw [hcode, hprecision]
    simp [f, j, isHigh, hknown, hjunk, ratio]
    norm_num
  have hold := (hcode _).mp (hcodes _ hnew)
  rw [hprecision] at hold
  simp [f, j, isHigh, hknown, hjunk, ratio] at hold

/-! ### A missed defect with the key of another -/

/-- The findings of all seeded defects but one. -/
def allBut (truth : GroundTruth) (d : GroundTruthDefect) (id : String) : List DetectionFinding :=
  (truth.defects.filter fun e => decide (e.scenarioId = id ∧ e.place ≠ d.place)).map fun e =>
    ⟨e.defectId, .low⟩

theorem found_allBut {d e : GroundTruthDefect} (he : e ∈ truth.defects) (hne : e.place ≠ d.place) :
    ∃ f ∈ allBut truth d e.scenarioId, f.defectId = e.defectId :=
  ⟨⟨e.defectId, .low⟩, List.mem_map.mpr ⟨e, List.mem_filter.mpr ⟨he, decide_eq_true ⟨rfl, hne⟩⟩,
    rfl⟩, rfl⟩

theorem low_allBut {d : GroundTruthDefect} {id : String} {f : DetectionFinding}
    (hf : f ∈ allBut truth d id) : isHigh f = false := by
  obtain ⟨e, -, rfl⟩ := List.mem_map.mp hf
  rfl

theorem not_found_allBut {d : GroundTruthDefect} {f : DetectionFinding}
    (hf : f ∈ allBut truth d d.scenarioId) : f.defectId ≠ d.defectId := by
  obtain ⟨e, he, rfl⟩ := List.mem_map.mp hf
  obtain ⟨-, he⟩ := List.mem_filter.mp he
  obtain ⟨hscen, hne⟩ := of_decide_eq_true he
  intro hid
  exact hne (Prod.ext hscen hid)

theorem ratio_self (n : ℕ) : (ratio n n).value = 1 := by
  simp only [ratio]
  split
  · rfl
  · next h => exact div_self (Nat.cast_ne_zero.mpr h)

theorem sum_of_all_but_one {α : Type} {g : α → ℕ} {bound : ℕ} {d : α} {xs : List α}
    (hnodup : xs.Nodup) (h : ∀ x ∈ xs, x ≠ d → g x = bound) :
    bound * xs.length ≤ (xs.map g).sum + bound ∧
      (d ∉ xs → (xs.map g).sum = bound * xs.length) := by
  induction xs with
  | nil => exact ⟨Nat.zero_le _, fun _ => rfl⟩
  | cons x xs ih =>
    obtain ⟨hx, hnodup⟩ := List.nodup_cons.mp hnodup
    obtain ⟨hle, heq⟩ := ih hnodup fun y hy => h y (List.mem_cons_of_mem _ hy)
    simp only [List.map_cons, List.sum_cons, List.length_cons, Nat.mul_add, Nat.mul_one]
    constructor
    · by_cases hxd : x = d
      · have := heq (hxd ▸ hx)
        omega
      · have := h x List.mem_cons_self hxd
        omega
    · intro hd
      rw [List.mem_cons, not_or] at hd
      have hgx := h x List.mem_cons_self (Ne.symm hd.1)
      have := heq hd.2
      omega

theorem stable_rate_allBut (hs : Scorable manifest truth) {d : GroundTruthDefect}
    (hplace : ∀ x ∈ truth.defects, x.place = d.place → x = d)
    (hmany : d.stable = false ∨ 4 ≤ (stableDefects truth).length) :
    ¬ (stableReproductionRate (fullMatrix P manifest (allBut truth d)) truth).value < 7 / 10 := by
  have hnodup : (stableDefects truth).Nodup :=
    (List.Nodup.of_map _ (places_of_consistent hs.1).2).filter _
  have hreproduced : ∀ x ∈ stableDefects truth, x ≠ d →
      (attemptsOf (fullMatrix P manifest (allBut truth d)) x.scenarioId).countP
        (reports x.defectId) = manifest.referenceProfile.repetitions := by
    intro x hx hxd
    have hmem := List.mem_of_mem_filter hx
    exact reproduced_fullMatrix hs hmem
      (found_allBut hmem fun hpl => hxd (hplace x hmem hpl))
  have hslots : ((stableDefects truth).map fun x =>
      (attemptsOf (fullMatrix P manifest (allBut truth d)) x.scenarioId).length).sum =
      manifest.referenceProfile.repetitions * (stableDefects truth).length := by
    have hin : ∀ x ∈ stableDefects truth,
        (attemptsOf (fullMatrix P manifest (allBut truth d)) x.scenarioId).length =
          manifest.referenceProfile.repetitions := fun x hx =>
      complete_fullMatrix.length_attemptsOf
        ((places_of_consistent hs.1).1 x (List.mem_of_mem_filter hx))
    rw [List.map_congr_left hin, List.map_const', List.sum_replicate, smul_eq_mul, Nat.mul_comm]
  obtain ⟨hle, heq⟩ := sum_of_all_but_one (g := fun x : GroundTruthDefect =>
    (attemptsOf (fullMatrix P manifest (allBut truth d)) x.scenarioId).countP
      (reports x.defectId)) hnodup hreproduced
  rw [stableReproductionRate, hslots]
  obtain hunstable | hlen := hmany
  · have hnot : d ∉ stableDefects truth := by
      intro hd
      have := (List.mem_filter.mp hd).2
      rw [hunstable] at this
      cases this
    rw [heq hnot, ratio_self]
    norm_num
  · have hrep := hs.2
    generalize (stableDefects truth).length = k at *
    generalize manifest.referenceProfile.repetitions = r at *
    generalize ((stableDefects truth).map fun x : GroundTruthDefect =>
      (attemptsOf (fullMatrix P manifest (allBut truth d)) x.scenarioId).countP
        (reports x.defectId)).sum = n at *
    have hne : r * k ≠ 0 := Nat.mul_ne_zero (by omega) (by omega)
    simp only [ratio, hne, if_false, not_lt]
    rw [div_le_div_iff₀ (by norm_num) (Nat.cast_pos.mpr (Nat.pos_of_ne_zero hne))]
    have : 7 * (r * k) ≤ n * 10 := by
      obtain ⟨m, rfl⟩ := Nat.exists_eq_add_of_le hlen
      rw [Nat.mul_add] at hle ⊢
      omega
    exact_mod_cast this

/-- A benchmark that misses a P0 defect in its scenario passes when another defect has the key and
the stable reproductions do not show it. -/
theorem passed_allBut (hs : Scorable manifest truth) {d e : GroundTruthDefect}
    (hd : d ∈ truth.defects) (hsev : d.severity = .p0)
    (hmany : d.stable = false ∨ 4 ≤ (stableDefects truth).length) (he : e ∈ truth.defects)
    (hkey : defectKey e.scenarioId e.defectId = defectKey d.scenarioId d.defectId)
    (hne : e.place ≠ d.place) :
    evaluateThresholds (computeMetrics manifest (fullMatrix P manifest (allBut truth d)) truth) =
      [] := by
  set attempts := fullMatrix P manifest (allBut truth d) with hattempts
  have hnodup := (places_of_consistent hs.1).2
  have hplace : ∀ x ∈ truth.defects, x.place = d.place → x = d := fun x hx hpl =>
    List.inj_on_of_nodup_map hnodup hx hd hpl
  have hdetected : ∀ x ∈ truth.defects, isDetected attempts x = true := by
    intro x hx
    by_cases hxd : x.place = d.place
    · obtain rfl := hplace x hx hxd
      have := detected_fullMatrix (P := P) hs he (found_allBut he hne)
      rw [isDetected, hkey] at this
      exact this
    · exact detected_fullMatrix hs hx (found_allBut hx hxd)
  have hlow : ∀ f ∈ findingsOf attempts, isHigh f.2 = false := by
    intro f hf
    obtain ⟨a, ha, hfa⟩ := List.mem_flatMap.mp hf
    obtain ⟨g, hg, rfl⟩ := List.mem_map.mp hfa
    obtain ⟨id, -, i, -, rfl⟩ := mem_fullMatrix.mp ha
    exact low_allBut hg
  have hrecall : ∀ defects : List GroundTruthDefect, (∀ x ∈ defects, x ∈ truth.defects) →
      detectionRecall attempts defects = ratio defects.length defects.length := fun defects hsub => by
    rw [detectionRecall, List.countP_eq_length.mpr fun x hx => hdetected x (hsub x hx)]
  have hp0 : p0Recall attempts truth = ratio (p0Defects truth).length (p0Defects truth).length ∧
      (p0Defects truth).length ≠ 0 := by
    have hmem : d ∈ p0Defects truth := List.mem_filter.mpr ⟨hd, decide_eq_true hsev⟩
    have hlen := (List.length_pos_of_mem hmem).ne'
    rw [p0Recall, if_neg hlen,
      hrecall (p0Defects truth) fun x hx => List.mem_of_mem_filter hx]
    exact ⟨rfl, hlen⟩
  have hhigh : (findingsOf attempts).countP (fun f => isHigh f.2) = 0 :=
    List.countP_eq_zero.mpr fun f hf => by simp [hlow f hf]
  have hprecision : (findingPrecision attempts truth).value = 1 := by
    simp [findingPrecision, hhigh, ratio]
  have hfp : ∀ id, falsePositives attempts truth id = 0 := by
    intro id
    refine List.countP_eq_zero.mpr ?_
    intro f hf
    obtain ⟨a, ha, hfa⟩ := List.mem_flatMap.mp hf
    have hl := hlow (a.scenarioId, f) (List.mem_flatMap.mpr
      ⟨a, List.mem_of_mem_filter ha, List.mem_map.mpr ⟨f, hfa, rfl⟩⟩)
    rw [show isHigh f = false from hl]
    simp
  have hstable : ¬ (stableReproductionRate attempts truth).value < 7 / 10 :=
    stable_rate_allBut hs hplace hmany
  have hempty : ∀ code, code ∉ evaluateThresholds (computeMetrics manifest attempts truth) := by
    intro code hc
    simp only [evaluateThresholds, List.mem_append, mem_failureWhen, decide_eq_true_eq,
      computeMetrics, defaultDetectionThresholds, hp0.1, hprecision,
      hrecall truth.defects fun _ h => h, ratio_self] at hc
    obtain (((⟨hf, -⟩ | ⟨hf, -⟩) | ⟨hf, -⟩) | ⟨hf, -⟩) | ⟨hf, -⟩ := hc
    · exact hf.elim hp0.2 fun h => h.elim (fun h => h rfl) (lt_irrefl _)
    · norm_num at hf
    · norm_num at hf
    · exact hstable hf
    · obtain ⟨entry, hentry, hlt⟩ := List.any_eq_true.mp hf
      obtain ⟨s, -, -, -, rfl⟩ := mem_falsePositives.mp hentry
      have hlt := of_decide_eq_true hlt
      rw [hfp] at hlt
      omega
  exact List.eq_nil_iff_forall_not_mem.mpr hempty

theorem missed_p0 (hs : Scorable manifest truth) (hlaw : ScoringLaws P manifest truth)
    {d e : GroundTruthDefect} (hd : d ∈ truth.defects) (hsev : d.severity = .p0)
    (hmany : d.stable = false ∨ 4 ≤ (stableDefects truth).length) (he : e ∈ truth.defects)
    (hkey : defectKey e.scenarioId e.defectId = defectKey d.scenarioId d.defectId) :
    e.place = d.place := by
  by_contra hne
  have hscore : scoreBenchmark P manifest (fullMatrix P manifest (allBut truth d)) truth
      noOptions = .ok (reportOf P manifest (fullMatrix P manifest (allBut truth d)) truth noOptions
        (referenceProfileSha256 P manifest.referenceProfile)) :=
    score_eq_ok.mpr ⟨hs.1, complete_fullMatrix, _,
      profile_of_fullMatrix hs ⟨_, (places_of_consistent hs.1).1 d hd⟩, rfl⟩
  obtain ⟨a, ha, hscen, f, hf, hid⟩ := hlaw.p0 _ _ _ hscore
    (passed_iff.mpr ⟨rfl, passed_allBut hs hd hsev hmany he hkey hne⟩) d hd hsev
  obtain ⟨id, -, i, -, rfl⟩ := mem_fullMatrix.mp ha
  obtain rfl : id = d.scenarioId := hscen
  exact not_found_allBut hf hid

/-- The laws of the score hold of a manifest and a ground truth that can be scored just when the
keys of the seeded defects are apart. -/
theorem scoring_laws_iff (P : Platform) (manifest : DetectionBenchmarkManifest)
    (truth : GroundTruth) :
    ScoringLaws P manifest truth ↔ (Scorable manifest truth → KeysApart manifest truth) := by
  constructor
  · intro hlaw hs
    refine ⟨?_, ?_⟩
    · intro id hid defectId d hd hkey
      exact removal_fails hs hid
        (decide_eq_true (List.mem_map.mpr ⟨d, hd, hkey.symm⟩)) hlaw
    · intro d hd hsev hmany e he hkey
      exact missed_p0 hs hlaw hd hsev hmany he hkey
  · exact laws_of_keysApart

/-! ### A passed benchmark without its P0 defect -/

def shortPlatform : Platform where
  sha256Hex _ := "h"
  sha256Base64url _ := "h"
  newUrl _ := none
  bindText _ := none

/-- Two scenarios, the second of which is named after the first one. -/
def nulManifest : DetectionBenchmarkManifest where
  benchmarkVersion := "1"
  referenceProfile := ⟨"p", "p", "m", "v", "s", "s", "b", [], .int 1, .int 1, .int 1, 1⟩
  scenarios := [⟨"a", "f", "1", .fault, "m", "g", []⟩, ⟨"a\u0000b", "f", "1", .fault, "m", "g", ["c"]⟩]

def nulTruth : GroundTruth := ⟨"1", [⟨"a\u0000b", "c", .p0, false⟩]⟩

/-- Nothing is found in the second scenario, and a false finding in the first one. -/
def nulAttempts : List BenchmarkAttempt :=
  [⟨"1", "h", "a", .fault, 1, [⟨"b\u0000c", .low⟩]⟩, ⟨"2", "h", "a\u0000b", .fault, 1, []⟩]

/-- The benchmark passes although its P0 defect was not detected. -/
theorem passed_without_p0 :
    (scoreBenchmark shortPlatform nulManifest nulAttempts nulTruth noOptions).toOption.map
        (·.gate) = some ⟨.passed, []⟩ ∧
      (∀ d ∈ nulTruth.defects, d.severity = .p0) ∧
      ∀ a ∈ nulAttempts, ∀ d ∈ nulTruth.defects, a.scenarioId = d.scenarioId →
        a.findings = [] := by
  decide +kernel

end Qualigence.Benchmark
