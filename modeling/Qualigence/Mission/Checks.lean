import Qualigence.Mission.Readable

/-! # What the checks of planning and intake leave

A plan that was created from a proposal has identities and references that are not blank,
and a mission that was compiled for a valid target has jobs and a policy that the Runner
accepts.
-/

namespace Qualigence.Mission

open Foundation Protocol

/-! ## Plans -/

/-- The texts of a test case that planning makes sure of. -/
structure TestCase.Identified (t : TestCase) : Prop where
  id : isBlank t.id = false
  referenced : ∀ step ∈ t.steps.toList, step.Referenced
  claims : ∀ claim ∈ t.expectedClaims.toList, isBlank claim.claimId = false

def ProposedIntentStep.Referenced : ProposedIntentStep → Prop
  | .input _ valueRef => isBlank valueRef = false
  | _ => True

def TestPlanProposal.Referenced (p : TestPlanProposal) : Prop :=
  ∀ t ∈ p.testCases, ∀ step ∈ t.steps.toList, step.Referenced

theorem isJsSpace_of_isAlphanum {c : Char} (h : c.isAlphanum = true) : isJsSpace c = false := by
  have hrange : (48 ≤ c.toNat ∧ c.toNat ≤ 57) ∨ (65 ≤ c.toNat ∧ c.toNat ≤ 90) ∨
      (97 ≤ c.toNat ∧ c.toNat ≤ 122) := by
    delta Char.isAlphanum Char.isAlpha Char.isUpper Char.isLower Char.isDigit at h
    simp only [Bool.or_eq_true, Bool.and_eq_true, decide_eq_true_eq] at h
    simp only [UInt32.le_iff_toNat_le] at h
    unfold Char.toNat
    rcases h with (h | h) | h
    · exact .inr (.inl h)
    · exact .inr (.inr h)
    · exact .inl h
  simp only [isJsSpace, decide_eq_false_iff_not, List.mem_cons, List.not_mem_nil, or_false]
  omega

theorem isBlank_of_head {s : String} {c : Char} {cs : List Char} (h : s.toList = c :: cs)
    (hc : c.isAlphanum = true) : isBlank s = false := by
  refine isBlank_eq_false_iff.mpr ⟨c, ?_, isJsSpace_of_isAlphanum hc⟩
  rw [h]
  exact List.mem_cons_self

section Plans

variable {P : PlanningPlatform}

theorem isBlank_shortHash (hP : P.Lawful) (text : String) :
    isBlank (shortHash P.toPlatform text) = false := by
  have hlength : (P.sha256 text).toList.length = 64 := hP.digest_length _
  cases hd : (P.sha256 text).toList with
  | nil =>
    rw [hd] at hlength
    cases hlength
  | cons c cs =>
    have hc : c.isAlphanum = true := hP.digest_hex _ c (by
      rw [show P.sha256Hex (utf8Bytes text) = P.sha256 text from rfl, hd]
      exact List.mem_cons_self)
    have hshort : (shortHash P.toPlatform text).toList = c :: cs.take 31 := by
      simp [shortHash, hd]
    exact isBlank_of_head hshort hc

theorem referenced_of_parseStep {v : JsValue} {step : ProposedIntentStep}
    (h : parseStep v = .ok step) : step.Referenced := by
  unfold parseStep invalidProposal at h
  split at h
  · split at h
    · split at h
      · cases h
        trivial
      · obtain ⟨target, _, h⟩ := bind_eq_ok.mp h
        cases h
        trivial
      · obtain ⟨target, _, h⟩ := bind_eq_ok.mp h
        split at h
        · split at h
          · next htest =>
            cases h
            obtain ⟨c, cs, hs, hc⟩ := Pattern.head_of_test htest
            exact isBlank_of_head hs hc
          · cases h
        · cases h
      · obtain ⟨keys, _, h⟩ := bind_eq_ok.mp h
        cases h
        trivial
      · cases h
    · cases h
  · cases h

theorem toList_of_nonEmpty {α : Type} {values : List α} {field : String} {xs : NonEmptyList α}
    (h : nonEmpty values field = .ok xs) : xs.toList = values := by
  unfold nonEmpty invalidProposal at h
  split at h
  · cases h
  · cases h
    rfl

theorem referenced_of_parseTestCase {v : JsValue} {t : ProposedTestCase}
    (h : parseTestCase v = .ok t) : ∀ step ∈ t.steps.toList, step.Referenced := by
  unfold parseTestCase invalidProposal at h
  split at h
  · split at h
    · obtain ⟨parsed, hp, h⟩ := bind_eq_ok.mp h
      obtain ⟨steps, hs, h⟩ := bind_eq_ok.mp h
      obtain ⟨keys, _, h⟩ := bind_eq_ok.mp h
      obtain ⟨parsedRefs, _, h⟩ := bind_eq_ok.mp h
      obtain ⟨refs, _, h⟩ := bind_eq_ok.mp h
      cases h
      intro step hm
      rw [toList_of_nonEmpty hs] at hm
      obtain ⟨v, _, hv⟩ := exists_of_mapM hp step hm
      exact referenced_of_parseStep hv
    · cases h
  · cases h

theorem referenced_of_parseProposal {v : JsValue} {p : TestPlanProposal}
    (h : parseProposal v = .ok p) : p.Referenced := by
  unfold parseProposal invalidProposal at h
  split at h
  · split at h
    · obtain ⟨claims, _, h⟩ := bind_eq_ok.mp h
      obtain ⟨cases', hc, h⟩ := bind_eq_ok.mp h
      cases h
      intro t ht
      obtain ⟨v, _, hv⟩ := exists_of_mapM hc t ht
      exact referenced_of_parseTestCase hv
    · cases h
  · cases h

theorem referenced_of_validateStep {keys : List String} {step step' : ProposedIntentStep}
    (h : validateStep P keys step = .ok step') (hr : step.Referenced) : step'.Referenced := by
  unfold validateStep at h
  cases step with
  | navigate path =>
    obtain ⟨_, _, h⟩ := bind_eq_ok.mp h
    cases h
    trivial
  | click target =>
    obtain ⟨_, _, h⟩ := bind_eq_ok.mp h
    cases h
    trivial
  | input target valueRef =>
    obtain ⟨_, _, h⟩ := bind_eq_ok.mp h
    obtain ⟨_, _, h⟩ := bind_eq_ok.mp h
    cases h
    exact hr
  | verify rawKeys =>
    obtain ⟨_, _, h⟩ := bind_eq_ok.mp h
    cases h
    trivial

theorem referenced_of_validate {document : PrdDocument} {p p' : TestPlanProposal}
    (h : validate P document p = .ok p') (hr : p.Referenced) : p'.Referenced := by
  unfold validate fail at h
  split at h
  · cases h
  obtain ⟨claims, _, h⟩ := bind_eq_ok.mp h
  obtain ⟨_, _, h⟩ := bind_eq_ok.mp h
  obtain ⟨cases', hc, h⟩ := bind_eq_ok.mp h
  cases h
  intro t' ht'
  obtain ⟨t, ht, hv⟩ := exists_of_mapM hc t' ht'
  unfold validateTestCase at hv
  obtain ⟨_, _, hv⟩ := bind_eq_ok.mp hv
  obtain ⟨keys, _, hv⟩ := bind_eq_ok.mp hv
  obtain ⟨first, hfirst, hv⟩ := bind_eq_ok.mp hv
  obtain ⟨rest, hrest, hv⟩ := bind_eq_ok.mp hv
  cases hv
  intro step hs
  rcases List.mem_cons.mp hs with rfl | hs
  · exact referenced_of_validateStep hfirst (hr t ht _ List.mem_cons_self)
  · obtain ⟨s, hm, hstep⟩ := exists_of_mapM hrest step hs
    exact referenced_of_validateStep hstep (hr t ht s (List.mem_cons_of_mem _ hm))

end Plans

section Drafts

variable {claims : List ExpectedClaim} (hclaims : ∀ c ∈ claims, isBlank c.claimId = false)

include hclaims

theorem mem_of_claimOfKey {key : String} {claim : ExpectedClaim}
    (h : claimOfKey claims key = some claim) : isBlank claim.claimId = false :=
  hclaims claim (List.mem_reverse.mp (List.mem_of_find?_eq_some h))

theorem isBlank_of_claimIdOfKey {key id : String} (h : claimIdOfKey claims key = .ok id) :
    isBlank id = false := by
  unfold claimIdOfKey at h
  split at h
  · next claim hc =>
    cases h
    exact mem_of_claimOfKey hclaims hc
  · cases h

theorem referenced_of_compileStep {step : ProposedIntentStep} {step' : IntentStep}
    (h : compileStep claims step = .ok step') (hr : step.Referenced) : step'.Referenced := by
  cases step with
  | navigate path =>
    cases h
    trivial
  | click target =>
    cases h
    trivial
  | input target valueRef =>
    cases h
    exact hr
  | verify keys =>
    obtain ⟨first, hfirst, h⟩ := bind_eq_ok.mp h
    obtain ⟨rest, hrest, h⟩ := bind_eq_ok.mp h
    cases h
    intro id hid
    rcases List.mem_cons.mp hid with rfl | hid
    · exact isBlank_of_claimIdOfKey hclaims hfirst
    · obtain ⟨key, _, hkey⟩ := exists_of_mapM hrest id hid
      exact isBlank_of_claimIdOfKey hclaims hkey

theorem isBlank_of_expectedClaim {key : String} {claim : ExpectedClaim}
    (h : expectedClaim claims key = .ok claim) : isBlank claim.claimId = false := by
  unfold expectedClaim at h
  split at h
  · next hc =>
    cases h
    exact mem_of_claimOfKey hclaims hc
  · cases h

theorem identified_of_compileTestCase {id : String} (hid : isBlank id = false)
    {t : ProposedTestCase} (hr : ∀ step ∈ t.steps.toList, step.Referenced) {t' : TestCase}
    (h : compileTestCase claims id t = .ok t') : t'.Identified := by
  unfold compileTestCase at h
  obtain ⟨firstStep, hfs, h⟩ := bind_eq_ok.mp h
  obtain ⟨restSteps, hrs, h⟩ := bind_eq_ok.mp h
  obtain ⟨firstClaim, hfc, h⟩ := bind_eq_ok.mp h
  obtain ⟨restClaims, hrc, h⟩ := bind_eq_ok.mp h
  cases h
  constructor
  · exact hid
  · intro step hs
    rcases List.mem_cons.mp hs with rfl | hs
    · exact referenced_of_compileStep hclaims hfs (hr _ List.mem_cons_self)
    · obtain ⟨s, hm, hstep⟩ := exists_of_mapM hrs step hs
      exact referenced_of_compileStep hclaims hstep (hr s (List.mem_cons_of_mem _ hm))
  · intro claim hc
    rcases List.mem_cons.mp hc with rfl | hc
    · exact isBlank_of_expectedClaim hclaims hfc
    · obtain ⟨key, _, hkey⟩ := exists_of_mapM hrc claim hc
      exact isBlank_of_expectedClaim hclaims hkey

end Drafts

theorem status_of_createDraftTestPlan {projectId prdId : String} {prdRevision : Int}
    {proposal : TestPlanProposal} {id : ℕ → String} {plan : TestPlanRevision}
    (h : createDraftTestPlan projectId prdId prdRevision proposal id = .ok plan) :
    plan.status = .draft := by
  unfold createDraftTestPlan at h
  obtain ⟨testCases, _, h⟩ := bind_eq_ok.mp h
  split at h
  · cases h
    rfl
  · cases h

/-- The test cases of a draft have what planning makes sure of. -/
theorem identified_of_createDraftTestPlan {projectId prdId : String} {prdRevision : Int}
    {proposal : TestPlanProposal} {id : ℕ → String} {plan : TestPlanRevision}
    (hid : ∀ i, isBlank (id i) = false) (hr : proposal.Referenced)
    (h : createDraftTestPlan projectId prdId prdRevision proposal id = .ok plan) :
    ∀ t ∈ plan.testCases.toList, t.Identified := by
  unfold createDraftTestPlan at h
  obtain ⟨testCases, ht, h⟩ := bind_eq_ok.mp h
  have hclaims : ∀ c ∈ proposal.expectedClaims.zipIdx.map
      (fun entry => toFinalClaim entry.1 (id entry.2)), isBlank c.claimId = false := by
    intro c hc
    obtain ⟨entry, _, rfl⟩ := List.mem_map.mp hc
    exact hid entry.2
  split at h
  · cases h
    intro t hm
    obtain ⟨entry, he, hc⟩ := exists_of_mapM ht t hm
    exact identified_of_compileTestCase hclaims (hid entry.2)
      (hr entry.1 (List.fst_mem_of_mem_zipIdx he)) hc
  · cases h

/-! ## Missions -/

/-- What compiling makes sure of in a job of a mission. -/
structure ExecutionJob.Compiled (plan : TestPlanRevision) (job : ExecutionJob) : Prop where
  testCase : job.testCaseSnapshot ∈ plan.testCases.toList
  testCaseId : job.testCaseId = job.testCaseSnapshot.id
  fits : job.testCaseSnapshot.steps.toList.length ≤ 100
  budget : job.budget = missionBudget
  capabilities : ∀ c ∈ job.requiredCapabilities, c ≠ ""

section Missions

variable {P : Platform} {target : TargetRevision}

theorem capabilityForStep_ne (kind : StepKind) : capabilityForStep kind ≠ "" := by
  cases kind <;> decide

theorem ne_empty_of_requiredCapabilities {t : TestCase} {summary : TargetCapabilitySummary}
    {capabilities : List String} (h : requiredCapabilities t summary = .ok capabilities) :
    ∀ c ∈ capabilities, c ≠ "" := by
  unfold requiredCapabilities refuse at h
  split at h
  · next targetCapability ht =>
    cases h
    have hmem : targetCapability ∈ [targetCapability] := List.mem_singleton_self _
    rw [← ht, List.mem_filter] at hmem
    have hnamed : targetCapability ≠ "" := by
      rintro rfl
      exact absurd hmem.2 (by decide)
    intro c hc
    rw [List.mem_insertionSort, List.mem_eraseDups] at hc
    simp only [List.cons_append, List.mem_cons, List.mem_append, List.mem_map] at hc
    rcases hc with rfl | hc | rfl | ⟨step, _, rfl⟩
    · exact hnamed
    · split at hc
      · revert c
        decide
      · cases hc
    · decide
    · exact capabilityForStep_ne _
  · cases h

theorem compiled_of_compileJob {command : CreateMissionCommand} {plan : TestPlanRevision}
    {policy : ApprovedExecutionPolicy} {summary : TargetCapabilitySummary} {t : TestCase}
    {job : ExecutionJob} (ht : t ∈ plan.testCases.toList)
    (h : compileJob P (testMission P command target plan policy) summary t = .ok job) :
    job.Compiled plan := by
  unfold compileJob refuse at h
  split at h
  · cases h
  next hfits =>
  split at h
  · cases h
  obtain ⟨capabilities, hc, h⟩ := bind_eq_ok.mp h
  cases h
  exact ⟨ht, rfl, Nat.not_lt.mp hfits, rfl, ne_empty_of_requiredCapabilities hc⟩

/-- A mission that is compiled from an approved plan. -/
structure CompiledMission.From (P : Platform) (command : CreateMissionCommand)
    (target : TargetRevision) (plan : TestPlanRevision) (policy : ApprovedExecutionPolicy)
    (compiled : CompiledMission) : Prop where
  missionId : compiled.missionId = missionIdOf P command.idempotencyKey
  revision : compiled.missionRevision = 1
  project : isBlank command.projectId = false
  valid : validateApprovedExecutionPolicy P policy maximumWallClockMs = .ok ()
  carries : compiled.executionPolicy = policy
  jobs : ∀ job ∈ compiled.jobs.toList, job.Compiled plan

theorem from_of_compile {command : CreateMissionCommand} {plan : TestPlanRevision}
    {policy : ApprovedExecutionPolicy} {summary : TargetCapabilitySummary}
    {compiled : CompiledMission}
    (h : compile P plan (testMission P command target plan policy) summary = .ok compiled) :
    compiled.From P command target plan policy := by
  unfold compile refuse at h
  split at h
  · cases h
  split at h
  · cases h
  next hproject =>
  push Not at hproject
  split at h
  · cases h
  split at h
  · cases h
  next hvalid =>
  obtain ⟨first, hfirst, h⟩ := bind_eq_ok.mp h
  obtain ⟨rest, hrest, h⟩ := bind_eq_ok.mp h
  cases h
  refine ⟨rfl, rfl, by simpa [testMission] using hproject.1, hvalid, rfl, ?_⟩
  intro job hj
  rcases List.mem_cons.mp hj with rfl | hj
  · exact compiled_of_compileJob List.mem_cons_self hfirst
  · obtain ⟨t, ht, hjob⟩ := exists_of_mapM hrest job hj
    exact compiled_of_compileJob (List.mem_cons_of_mem _ ht) hjob

end Missions

/-! ## Policies -/

section Policies

variable {P : Platform} {policy : ApprovedExecutionPolicy}

theorem parseOrigin_of_checkOrigin {origin : String} (h : checkOrigin P origin = .ok ()) :
    Job.parseOrigin P origin = .ok origin := by
  unfold checkOrigin at h
  unfold Job.parseOrigin
  split at h
  · cases h
  next hstar =>
  rw [if_neg hstar]
  split at h
  · cases h
  next url hurl =>
  rw [hurl]
  split at h
  · cases h
  next hsafe =>
  push Not at hsafe
  obtain ⟨hscheme, horigin, huser, hpassword⟩ := hsafe
  have hhttp : Job.isHttp url = true := by
    by_cases hp : url.protocol = "http:"
    · simp [Job.isHttp, hp, huser, hpassword]
    · simp [Job.isHttp, hscheme hp, huser, hpassword]
  simp [hhttp, horigin]

theorem parseOrigins_of_check {origins : List String}
    (h : origins.forM (checkOrigin P) = .ok ()) :
    origins.mapM (Job.parseOrigin P) = .ok origins := by
  induction origins with
  | nil => rfl
  | cons origin origins ih =>
    obtain ⟨_, ho, h⟩ := bind_eq_ok.mp h
    rw [List.mapM_cons, parseOrigin_of_checkOrigin ho, ih h]
    rfl

theorem isInstant_of_parseCanonicalInstant {t : Timestamp} {ms : Int}
    (h : parseCanonicalInstant t = .ok ms) : isInstant t = true ∧ parseInstant t = some ms := by
  unfold parseCanonicalInstant at h
  split at h
  · next ms' hp =>
    split at h
    · next hc =>
      cases h
      simp [isInstant, hp, hc]
    · cases h
  · cases h

theorem isBlank_of_isInstant {t : Timestamp} (h : isInstant t = true) : isBlank t = false := by
  unfold isInstant at h
  split at h
  · next ms hp =>
    refine isBlank_eq_false_iff.mpr ⟨'Z', ?_, by decide⟩
    have ht := of_decide_eq_true h
    rw [← ht]
    simp [toISOString]
  · cases h

theorem isoInstant_of_parseCanonicalInstant {t : Timestamp} {ms : Int}
    (h : parseCanonicalInstant t = .ok ms) : Job.isoInstant (.str t) = .ok t := by
  have hi := (isInstant_of_parseCanonicalInstant h).1
  unfold Job.isoInstant
  rw [nonEmptyString_of_nonblank (isBlank_of_isInstant hi)]
  simp [bind, Except.bind, hi]

theorem enumValue_of_enumText {α : Type} [DecidableEq α] {table : List (String × α)}
    (h : ∀ e ∈ table, Job.enumValue table (enumText table e.2) = .ok e.2) {kinds : List α}
    (hk : ∀ a ∈ kinds, ∃ e ∈ table, e.2 = a) :
    (kinds.map (enumText table)).mapM (Job.enumValue table) = .ok kinds := by
  induction kinds with
  | nil => rfl
  | cons a kinds ih =>
    obtain ⟨e, he, rfl⟩ := hk a List.mem_cons_self
    rw [List.map_cons, List.mapM_cons, h e he, ih fun b hb => hk b (List.mem_cons_of_mem _ hb)]
    rfl

/-- The policy of intake passes the parser when it passes its check and its origins are not
blank. -/
theorem parse_policy_of_validate {wallClock : ℕ}
    (h : validateApprovedExecutionPolicy P policy wallClock = .ok ())
    (horigins : ∀ origin ∈ policy.allowedOrigins, isBlank origin = false) :
    Job.parseExecutionPolicySnapshot P policy.toValue = .ok policy := by
  unfold validateApprovedExecutionPolicy at h
  split at h
  · cases h
  next hnamed =>
  push Not at hnamed
  obtain ⟨hid, hsome, hkinds⟩ := hnamed
  obtain ⟨issued, hi, h⟩ := bind_eq_ok.mp h
  obtain ⟨expires, he, h⟩ := bind_eq_ok.mp h
  split at h
  · cases h
  next hafter =>
  split at h
  · cases h
  split at h
  · cases h
  next hdup =>
  obtain ⟨_, hcheck, h⟩ := bind_eq_ok.mp h
  split at h
  · cases h
  next hstaging =>
  obtain ⟨id, environment, origins, kinds, risk, exploration, issuedAt, expiresAt⟩ := policy
  cases origins with
  | nil => exact absurd rfl hsome
  | cons origin origins =>
  cases kinds with
  | nil => exact absurd rfl hkinds
  | cons kind kinds =>
  have hparsed : ¬ (parseInstant expiresAt).getD 0 ≤ (parseInstant issuedAt).getD 0 := by
    rw [(isInstant_of_parseCanonicalInstant hi).2, (isInstant_of_parseCanonicalInstant he).2]
    exact hafter
  have htexts : Job.stringTuple (AppTarget.strings (origin :: origins)) =
      .ok ⟨origin, origins⟩ :=
    @stringTuple_of_nonblank ⟨origin, origins⟩ horigins
  have hkindTexts : (((kind :: kinds).map (enumText Job.actionKinds)).mapM
      (Job.enumValue Job.actionKinds)) = .ok (kind :: kinds) :=
    enumValue_of_enumText (by decide) fun a _ => by cases a <;> decide
  unfold Job.parseExecutionPolicySnapshot ExecutionPolicySnapshot.toValue
  refine bind_eq_ok.mpr ⟨_, rfl, ?_⟩
  simp only [JsValue.field_of_ne, JsValue.field_self, ne_eq, String.reduceEq, not_false_eq_true]
  refine bind_eq_ok.mpr ⟨id, nonEmptyString_of_nonblank (by simpa using hid), ?_⟩
  refine bind_eq_ok.mpr ⟨environment, by cases environment <;> rfl, ?_⟩
  refine bind_eq_ok.mpr ⟨⟨origin, origins⟩, htexts, ?_⟩
  refine bind_eq_ok.mpr ⟨origin :: origins, parseOrigins_of_check hcheck, ?_⟩
  refine bind_eq_ok.mpr ⟨⟨_, _⟩, rfl, ?_⟩
  refine bind_eq_ok.mpr ⟨kind :: kinds, hkindTexts, ?_⟩
  refine bind_eq_ok.mpr ⟨risk, by cases risk <;> rfl, ?_⟩
  refine bind_eq_ok.mpr ⟨issuedAt, isoInstant_of_parseCanonicalInstant hi, ?_⟩
  refine bind_eq_ok.mpr ⟨expiresAt, isoInstant_of_parseCanonicalInstant he, ?_⟩
  rw [if_neg hparsed, if_neg hdup, if_neg hstaging]

end Policies

end Qualigence.Mission
