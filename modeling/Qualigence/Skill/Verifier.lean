import Mathlib.Data.List.Nodup
import Mathlib.Logic.Function.Basic
import Qualigence.Foundation.Calls
import Qualigence.Skill.Store

/-! # Verification of bundles

A signed bundle is replayed against a list of fixtures, and four oracles judge the results. The
results are kept by the names of the fixtures, so a fixture is judged by the last replay under its
name.
-/

namespace Qualigence.Skill

open Foundation Protocol

inductive FixtureKind where
  | normal
  | domVariation
  | preconditionNegative
  deriving DecidableEq

structure SkillReplayFixture where
  name : String
  kind : FixtureKind
  deriving DecidableEq

inductive SkillReplayResult where
  | passed
  | blocked (errorCode : String)
  deriving DecidableEq

/-- What the replay of a fixture has to give: a negative one diverges safely. -/
def FixtureKind.expected : FixtureKind → SkillReplayResult
  | .normal => .passed
  | .domVariation => .passed
  | .preconditionNegative => .blocked "PlanDiverged"

/-- One replay. -/
structure FixtureReplay where
  bundle : SignedSkillBundle
  fixture : SkillReplayFixture
  deriving DecidableEq

/-- `SkillReplayPort` -/
abbrev replayPort : Signature where
  Op := FixtureReplay
  Reply _ := SkillReplayResult

def InvalidCode.text : InvalidCode → String
  | .skillSignatureInvalid => "SkillSignatureInvalid"
  | .skillTargetMismatch => "SkillTargetMismatch"
  | .skillBundleExpired => "SkillBundleExpired"
  | .skillContentTampered => "SkillContentTampered"

structure VerifyBundleInput where
  bundle : SignedSkillBundle
  signatureVerification : SkillSignatureVerification
  fixtures : List SkillReplayFixture

/-- What a verification draws: an identifier and the time. -/
structure EvaluationDraws where
  evaluationId : String
  createdAt : String

namespace SkillVerifier

/-- A program of the verifier; a port may throw any text. -/
abbrev Verifying (α : Type) := Program replayPort String α

/-- The results by the names of the fixtures. -/
abbrev Results := String → Option SkillReplayResult

def replayFixtures (bundle : SignedSkillBundle) :
    List SkillReplayFixture → Results → Verifying Results
  | [], results => pure results
  | fixture :: fixtures, results => do
    let result : SkillReplayResult ← Program.perform (S := replayPort) ⟨bundle, fixture⟩
    replayFixtures bundle fixtures (Function.update results fixture.name (some result))

/-- Nothing is replayed under an invalid signature. -/
def runFixtures (input : VerifyBundleInput) : Verifying Results :=
  match input.signatureVerification with
  | .valid => replayFixtures input.bundle input.fixtures fun _ => none
  | .invalid _ _ => pure fun _ => none

def signatureOracle : SkillSignatureVerification → OracleResult
  | .valid => ⟨"signature-integrity", .passed, none⟩
  | .invalid code _ => ⟨"signature-integrity", .failed, some code.text⟩

/-- The fixtures of a kind are enough, and each of them has its expected result. -/
def kindOracle (oracle : String) (kind : FixtureKind) (minimum : ℕ) (tooFew unexpected : String)
    (fixtures : List SkillReplayFixture) (results : Results) : OracleResult :=
  let ofKind := fixtures.filter fun fixture => fixture.kind = kind
  if ofKind.length < minimum then ⟨oracle, .failed, some tooFew⟩
  else if ofKind.all fun fixture => results fixture.name = some kind.expected then
    ⟨oracle, .passed, none⟩
  else ⟨oracle, .failed, some unexpected⟩

def exactTraceOracle : List SkillReplayFixture → Results → OracleResult :=
  kindOracle "exact-trace-replay" .normal 2 "At least two normal replays are required."
    "A normal replay did not pass."

def semanticTolerantOracle : List SkillReplayFixture → Results → OracleResult :=
  kindOracle "semantic-tolerant-replay" .domVariation 1
    "At least one DOM-variation replay is required."
    "A DOM-variation replay did not relocate by semantics."

def preconditionSafetyOracle : List SkillReplayFixture → Results → OracleResult :=
  kindOracle "precondition-safety" .preconditionNegative 1
    "At least one precondition-negative replay is required."
    "A precondition-negative replay did not safely diverge."

/-- The evaluation of the results. -/
def evaluate (draws : EvaluationDraws) (input : VerifyBundleInput) (results : Results) :
    SkillEvaluation :=
  let oracles : NonEmptyList OracleResult :=
    ⟨signatureOracle input.signatureVerification,
      [exactTraceOracle input.fixtures results, semanticTolerantOracle input.fixtures results,
        preconditionSafetyOracle input.fixtures results]⟩
  { evaluationId := draws.evaluationId
    skillId := input.bundle.manifest.skillId
    skillVersion := input.bundle.manifest.skillVersion
    oracles
    outcome := if oracles.toList.all fun oracle => oracle.status = .passed then .passed else .failed
    signatureValid := decide (input.signatureVerification = .valid)
    createdAt := draws.createdAt }

def verify (draws : EvaluationDraws) (input : VerifyBundleInput) : Verifying SkillEvaluation := do
  let results ← runFixtures input
  pure (evaluate draws input results)

/-! ## What the evaluation says -/

open Foundation.Program

/-- The fixtures are enough for every oracle. -/
def Enough (fixtures : List SkillReplayFixture) : Prop :=
  2 ≤ fixtures.countP (fun fixture => fixture.kind = .normal) ∧
    (∃ fixture ∈ fixtures, fixture.kind = .domVariation) ∧
    ∃ fixture ∈ fixtures, fixture.kind = .preconditionNegative

variable {draws : EvaluationDraws} {input : VerifyBundleInput} {results : Results}
  {bundle : SignedSkillBundle} {fixtures : List SkillReplayFixture}

theorem kindOracle_passed {oracle tooFew unexpected : String} {kind : FixtureKind} {minimum : ℕ} :
    (kindOracle oracle kind minimum tooFew unexpected fixtures results).status = .passed ↔
      minimum ≤ fixtures.countP (fun fixture => fixture.kind = kind) ∧
        ∀ fixture ∈ fixtures, fixture.kind = kind →
          results fixture.name = some fixture.kind.expected := by
  simp only [kindOracle]
  rw [List.countP_eq_length_filter]
  split
  · next hlt =>
    simp only [reduceCtorEq, false_iff, not_and]
    omega
  split
  · next hlt hall =>
    simp only [List.all_filter, List.all_eq_true, Bool.or_eq_true, Bool.not_eq_true',
      decide_eq_false_iff_not, decide_eq_true_eq] at hall
    refine ⟨fun _ => ⟨by omega, fun fixture hf hk => ?_⟩, fun _ => rfl⟩
    rw [hk]
    exact (hall fixture hf).resolve_left fun hn => hn hk
  · next hlt hall =>
    simp only [reduceCtorEq, false_iff]
    rintro ⟨-, hres⟩
    apply hall
    rw [List.all_eq_true]
    intro fixture hf
    rw [List.mem_filter, decide_eq_true_eq] at hf
    rw [decide_eq_true_eq, hres fixture hf.1 hf.2, hf.2]

/-- A passed evaluation has a valid signature, enough fixtures, and under the name of every fixture
the result that it has to give. -/
theorem evaluate_passed :
    (evaluate draws input results).outcome = .passed ↔
      input.signatureVerification = .valid ∧ Enough input.fixtures ∧
        ∀ fixture ∈ input.fixtures, results fixture.name = some fixture.kind.expected := by
  have hsig : (signatureOracle input.signatureVerification).status = .passed ↔
      input.signatureVerification = .valid := by
    cases input.signatureVerification <;> simp [signatureOracle]
  have hone (kind : FixtureKind) : 1 ≤ input.fixtures.countP (fun f => f.kind = kind) ↔
      ∃ f ∈ input.fixtures, f.kind = kind := by
    rw [Nat.one_le_iff_ne_zero, ← Nat.pos_iff_ne_zero, List.countP_pos_iff]
    simp
  have hout : (evaluate draws input results).outcome = .passed ↔
      ∀ oracle ∈ [signatureOracle input.signatureVerification,
        exactTraceOracle input.fixtures results, semanticTolerantOracle input.fixtures results,
        preconditionSafetyOracle input.fixtures results], oracle.status = .passed := by
    simp only [evaluate, NonEmptyList.toList, ite_eq_left_iff, reduceCtorEq, imp_false, not_not,
      List.all_eq_true, decide_eq_true_eq]
  rw [hout]
  simp only [List.mem_cons, List.not_mem_nil, or_false, forall_eq_or_imp, forall_eq, hsig,
    exactTraceOracle, semanticTolerantOracle, preconditionSafetyOracle, kindOracle_passed, hone,
    Enough]
  constructor
  · rintro ⟨hv, ⟨hn, hnormal⟩, ⟨hd, hdom⟩, hg, hneg⟩
    refine ⟨hv, ⟨hn, hd, hg⟩, fun fixture hf => ?_⟩
    cases hk : fixture.kind with
    | normal => exact hk ▸ hnormal fixture hf hk
    | domVariation => exact hk ▸ hdom fixture hf hk
    | preconditionNegative => exact hk ▸ hneg fixture hf hk
  · rintro ⟨hv, ⟨hn, hd, hg⟩, hall⟩
    exact ⟨hv, ⟨hn, fun f hf _ => hall f hf⟩, ⟨hd, fun f hf _ => hall f hf⟩, hg,
      fun f hf _ => hall f hf⟩

/-! ## The replays -/

/-- The results by name, after replays that were answered one after the other. -/
def collect : Results → List SkillReplayFixture → List SkillReplayResult → Results
  | results, [], _ => results
  | results, _ :: _, [] => results
  | results, fixture :: fixtures, result :: answers =>
    collect (Function.update results fixture.name (some result)) fixtures answers

/-- The calls of the port for a list of fixtures. -/
def replayed (bundle : SignedSkillBundle) (fixtures : List SkillReplayFixture)
    (answers : List SkillReplayResult) : List (Call replayPort String) :=
  List.zipWith (fun fixture result => ⟨⟨bundle, fixture⟩, .ok result⟩) fixtures answers

/-- Whatever the port answers, the fixtures are replayed one after the other until it throws. -/
theorem replayFixtures_logs (log : List (Call replayPort String)) :
    Logs (fun log' r => ∀ collected, r = .ok collected → ∃ answers,
      answers.length = fixtures.length ∧ log' = log ++ replayed bundle fixtures answers ∧
        collected = collect results fixtures answers) log
      (replayFixtures bundle fixtures results) := by
  induction fixtures generalizing log results with
  | nil =>
    rintro collected hr
    cases hr
    exact ⟨[], rfl, (List.append_nil log).symm, rfl⟩
  | cons fixture fixtures ih =>
    apply logs_step
    · rintro e collected hr
      cases hr
    · rintro (result : SkillReplayResult)
      refine Watched.mono (fun log' r h collected hr => ?_) (ih (log ++ _))
      obtain ⟨answers, hlen, hlog, hcol⟩ := h collected hr
      refine ⟨result :: answers, by simp [hlen], ?_, hcol⟩
      rw [hlog, List.append_assoc]
      rfl

/-- A port that answers the replays with the results of a list. -/
def answering (answers : List SkillReplayResult) : Oracle replayPort String :=
  fun log _ => .ok (answers[log.length]?.getD .passed)

theorem run_replayFixtures {past answers : List SkillReplayResult}
    {log : List (Call replayPort String)} (hlog : log.length = past.length)
    (hlen : answers.length = fixtures.length) :
    run (Oracle.handler (answering (past ++ answers))) (replayFixtures bundle fixtures results) log =
      (.ok (collect results fixtures answers), log ++ replayed bundle fixtures answers) := by
  induction fixtures generalizing past answers log results with
  | nil =>
    obtain rfl := List.length_eq_zero_iff.mp hlen
    simp only [replayed, List.zipWith_nil_right, List.append_nil, collect]
    rfl
  | cons fixture fixtures ih =>
    cases answers with
    | nil => simp at hlen
    | cons result answers =>
      have hanswer : answering (past ++ result :: answers) log ⟨bundle, fixture⟩ = .ok result := by
        rw [answering, hlog, List.getElem?_append_right le_rfl, Nat.sub_self]
        rfl
      rw [replayFixtures, bind_eq, run_bind, run_perform, Oracle.handler, hanswer]
      let replay : Call replayPort String := ⟨⟨bundle, fixture⟩, .ok result⟩
      have hlog' : (log ++ [replay]).length = (past ++ [result]).length := by simp [hlog]
      have hlen' : answers.length = fixtures.length := by simpa using hlen
      have hrest := @ih (Function.update results fixture.name (some result)) _ _ _ hlog' hlen'
      rw [List.append_assoc, List.singleton_append, List.append_assoc] at hrest
      exact hrest

/-! ## Fixtures and their own replays -/

/-- A passed verification has replayed every fixture, and each of these replays gave what its
fixture expects. -/
def CoversEvery (input : VerifyBundleInput) : Prop :=
  ∀ (draws : EvaluationDraws) (port : Oracle replayPort String) (evaluation : SkillEvaluation),
    outcome port (verify draws input) = .ok evaluation → evaluation.outcome = .passed →
      List.Forall₂ (fun fixture call => call = ⟨⟨input.bundle, fixture⟩, .ok fixture.kind.expected⟩)
        input.fixtures (calls port (verify draws input))

/-- No replay of a fixture can pass for one of another kind: the names of negative fixtures are not
those of the others. -/
def Separated (fixtures : List SkillReplayFixture) : Prop :=
  ∀ f ∈ fixtures, ∀ g ∈ fixtures, f.name = g.name → f.kind.expected = g.kind.expected

/-- The names of the fixtures are distinct, or the verification cannot pass. -/
def Distinguished (input : VerifyBundleInput) : Prop :=
  (input.fixtures.map (·.name)).Nodup ∨
    ¬ (input.signatureVerification = .valid ∧ Enough input.fixtures ∧ Separated input.fixtures)

theorem collect_of_not_mem {name : String} {answers : List SkillReplayResult}
    (h : name ∉ fixtures.map (·.name)) : collect results fixtures answers name = results name := by
  induction fixtures generalizing results answers with
  | nil => rfl
  | cons fixture fixtures ih =>
    rw [List.map_cons, List.mem_cons, not_or] at h
    cases answers with
    | nil => rfl
    | cons result answers => rw [collect, ih h.2, Function.update_of_ne h.1]

/-- Under distinct names, every fixture is judged by its own replay. -/
theorem forall₂_of_collect {answers : List SkillReplayResult}
    (hnodup : (fixtures.map (·.name)).Nodup) (hlen : answers.length = fixtures.length)
    (h : ∀ f ∈ fixtures, collect results fixtures answers f.name = some f.kind.expected) :
    List.Forall₂ (fun f result => result = f.kind.expected) fixtures answers := by
  induction fixtures generalizing results answers with
  | nil =>
    obtain rfl := List.length_eq_zero_iff.mp hlen
    exact .nil
  | cons fixture fixtures ih =>
    cases answers with
    | nil => simp at hlen
    | cons result answers =>
      rw [List.map_cons, List.nodup_cons] at hnodup
      constructor
      · have hfirst := h fixture List.mem_cons_self
        rw [collect, collect_of_not_mem hnodup.1, Function.update_self] at hfirst
        exact Option.some.inj hfirst
      · apply ih hnodup.2 (by simpa using hlen)
        intro f hf
        exact h f (List.mem_cons_of_mem _ hf)

/-- Answers that let every fixture fail behind which its name comes again. -/
def misled : List SkillReplayFixture → List SkillReplayResult
  | [] => []
  | fixture :: fixtures =>
    (if fixture.name ∈ fixtures.map (·.name) then .blocked "TargetUnavailable"
      else fixture.kind.expected) :: misled fixtures

theorem length_misled : (misled fixtures).length = fixtures.length := by
  induction fixtures with
  | nil => rfl
  | cons fixture fixtures ih => simp [misled, ih]

/-- What is kept under a name is right for the last fixture of the name. -/
theorem collect_misled {name : String} (h : name ∈ fixtures.map (·.name)) :
    ∃ g ∈ fixtures, g.name = name ∧
      collect results fixtures (misled fixtures) name = some g.kind.expected := by
  induction fixtures generalizing results with
  | nil => simp at h
  | cons fixture fixtures ih =>
    rw [misled, collect]
    by_cases hrest : name ∈ fixtures.map (·.name)
    · obtain ⟨g, hg, hname, hcol⟩ := ih hrest
      exact ⟨g, List.mem_cons_of_mem _ hg, hname, hcol⟩
    · have hname : fixture.name = name := by
        rw [List.map_cons, List.mem_cons] at h
        exact (h.resolve_right hrest).symm
      subst hname
      refine ⟨fixture, List.mem_cons_self, rfl, ?_⟩
      rw [collect_of_not_mem hrest, if_neg hrest, Function.update_self]

theorem nodup_of_misled
    (h : List.Forall₂ (fun f result => result = f.kind.expected) fixtures (misled fixtures)) :
    (fixtures.map (·.name)).Nodup := by
  induction fixtures with
  | nil => exact List.nodup_nil
  | cons fixture fixtures ih =>
    rw [misled, List.forall₂_cons] at h
    rw [List.map_cons, List.nodup_cons]
    refine ⟨fun hmem => ?_, ih h.2⟩
    have hkind := h.1
    rw [if_pos hmem] at hkind
    cases hk : fixture.kind <;> simp [hk, FixtureKind.expected] at hkind

theorem forall₂_replayed {answers : List SkillReplayResult}
    (hlen : answers.length = fixtures.length) :
    List.Forall₂ (fun f call => call = ⟨⟨bundle, f⟩, .ok f.kind.expected⟩) fixtures
        (replayed bundle fixtures answers) ↔
      List.Forall₂ (fun f result => result = f.kind.expected) fixtures answers := by
  induction fixtures generalizing answers with
  | nil =>
    obtain rfl := List.length_eq_zero_iff.mp hlen
    simp [replayed]
  | cons fixture fixtures ih =>
    cases answers with
    | nil => simp at hlen
    | cons result answers =>
      have hlen' : answers.length = fixtures.length := by simpa using hlen
      have hrest := ih hlen'
      rw [List.forall₂_cons, ← hrest, replayed, List.zipWith_cons_cons, List.forall₂_cons]
      simp [replayed]

/-- Whatever the port answers, the evaluation is that of the results by name. -/
theorem verify_logs : Logs (fun log r => ∀ evaluation, r = .ok evaluation →
    ∃ results, evaluation = evaluate draws input results ∧
      (input.signatureVerification = .valid → ∃ answers,
        answers.length = input.fixtures.length ∧ log = replayed input.bundle input.fixtures answers ∧
          results = collect (fun _ => none) input.fixtures answers)) [] (verify draws input) := by
  refine watched_bind (fun log r => ∀ results, r = .ok results →
    input.signatureVerification = .valid → ∃ answers, answers.length = input.fixtures.length ∧
      log = replayed input.bundle input.fixtures answers ∧
        results = collect (fun _ => none) input.fixtures answers) ?_ ?_ ?_
  · unfold runFixtures
    split
    · exact Watched.mono (fun log r h results hr _ => h results hr) (replayFixtures_logs [])
    · next hv =>
      intro results _ hvalid
      rw [hv] at hvalid
      cases hvalid
  · rintro log results h evaluation hr
    cases hr
    exact ⟨results, rfl, h results rfl⟩
  · rintro log e - evaluation hr
    cases hr

/-- A verification under a valid signature, on answers that are given one after the other. -/
theorem run_verify {answers : List SkillReplayResult} (hv : input.signatureVerification = .valid)
    (hlen : answers.length = input.fixtures.length) :
    run (Oracle.handler (answering answers)) (verify draws input) [] =
      (.ok (evaluate draws input (collect (fun _ => none) input.fixtures answers)),
        replayed input.bundle input.fixtures answers) := by
  have hlog : ([] : List (Call replayPort String)).length = ([] : List SkillReplayResult).length :=
    rfl
  have hrun := @run_replayFixtures (fun _ => none) input.bundle input.fixtures _ _ _ hlog hlen
  simp only [List.nil_append] at hrun
  rw [verify, bind_eq, run_bind, runFixtures, hv, hrun]
  rfl

/-- A passed verification has judged every fixture by its own replay, for every replay behaviour,
exactly when the names of the fixtures are distinct or the verification cannot pass at all. -/
theorem every_fixture_covered_iff (input : VerifyBundleInput) :
    CoversEvery input ↔ Distinguished input := by
  constructor
  · intro hcov
    by_contra hn
    rw [Distinguished, not_or, not_not] at hn
    obtain ⟨hnodup, hv, henough, hsep⟩ := hn
    let draws : EvaluationDraws := ⟨"", ""⟩
    have hlen : (misled input.fixtures).length = input.fixtures.length := length_misled
    have hrun := @run_verify draws input _ hv hlen
    have hpassed : (evaluate draws input
        (collect (fun _ => none) input.fixtures (misled input.fixtures))).outcome = .passed := by
      refine evaluate_passed.mpr ⟨hv, henough, fun f hf => ?_⟩
      have hmem : f.name ∈ input.fixtures.map (·.name) := List.mem_map_of_mem hf
      obtain ⟨g, hg, hname, hcol⟩ := @collect_misled (fun _ => none) _ _ hmem
      rw [hcol, hsep g hg f hf hname]
    have hall := hcov draws (answering (misled input.fixtures)) _
      (by rw [outcome, hrun]) hpassed
    rw [calls, hrun, forall₂_replayed length_misled] at hall
    exact hnodup (nodup_of_misled hall)
  · rintro h draws port evaluation hout hpassed
    obtain ⟨results, rfl, hres⟩ := verify_logs.calls port evaluation hout
    obtain ⟨hv, henough, hall⟩ := evaluate_passed.mp hpassed
    obtain ⟨answers, hlen, hcalls, rfl⟩ := hres hv
    rw [hcalls, forall₂_replayed hlen]
    rcases h with hnodup | hfail
    · exact forall₂_of_collect hnodup hlen hall
    · refine absurd ⟨hv, henough, fun f hf g hg hname => ?_⟩ hfail
      have hf := hall f hf
      rw [hname, hall g hg] at hf
      exact (Option.some.inj hf).symm

/-- Two normal fixtures of one name are covered by the second of their replays. -/
theorem repeated_name_not_covered :
    ¬ CoversEvery ⟨sampleSigned 1 .candidate, .valid, [⟨"normal", .normal⟩, ⟨"normal", .normal⟩,
      ⟨"dom", .domVariation⟩, ⟨"negative", .preconditionNegative⟩]⟩ := by
  intro h
  have hall := h ⟨"evaluation", "now"⟩
    (answering [.blocked "TargetUnavailable", .passed, .passed, .blocked "PlanDiverged"]) _ rfl
    (by decide)
  have hfirst := (List.forall₂_cons.mp hall).1
  simp [answering, FixtureKind.expected] at hfirst

end SkillVerifier

end Qualigence.Skill
