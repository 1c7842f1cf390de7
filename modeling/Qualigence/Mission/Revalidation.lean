import Mathlib.Data.List.TakeWhile
import Qualigence.Mission.World

/-! # Validating a draft once more

A draft that is approved is turned back into a proposal and validated again. The proposal is the
one that was validated when the draft was made, with normalized keys. Validation accepts it with
the same result, but for one thing: a key of spaces is not empty when it is proposed, and empty
when it is normalized.
-/

namespace Qualigence.Mission

open Foundation Protocol

/-- What the case conversion of Unicode makes sure of. The letters of its result are in lower case,
a text of such letters is left as it is, and nothing is left of no text but the empty one. -/
structure LowerCase (P : PlanningPlatform) : Prop where
  lowered : ∀ text, ∀ c ∈ (P.toLowerCase text).toList,
    P.toLowerCase (String.singleton c) = String.singleton c
  unchanged : ∀ text : String, (∀ c ∈ text.toList,
    P.toLowerCase (String.singleton c) = String.singleton c) → P.toLowerCase text = text
  dash : P.toLowerCase "-" = "-"
  nonempty : ∀ text, P.toLowerCase text = "" → text = ""

/-! ## Keys -/

theorem dashSpaces_eq_self {cs : List Char} (h : ∀ c ∈ cs, isJsSpace c = false) (inRun : Bool) :
    dashSpaces inRun cs = cs := by
  induction cs generalizing inRun with
  | nil => rfl
  | cons c cs ih =>
    rw [dashSpaces, h c List.mem_cons_self, if_neg Bool.false_ne_true]
    exact congrArg (c :: ·) (ih (fun d hd => h d (List.mem_cons_of_mem c hd)) false)

theorem mem_dashSpaces {c : Char} {cs : List Char} {inRun : Bool} (h : c ∈ dashSpaces inRun cs) :
    c = '-' ∨ c ∈ cs ∧ isJsSpace c = false := by
  induction cs generalizing inRun with
  | nil => cases h
  | cons d cs ih =>
    rw [dashSpaces] at h
    split at h
    · rcases List.mem_append.mp h with h | h
      · cases inRun with
        | false => exact Or.inl (List.mem_singleton.mp h)
        | true => cases h
      · exact (ih h).imp id (And.imp_left (List.mem_cons_of_mem d))
    · next hd =>
      rcases List.mem_cons.mp h with rfl | h
      · exact Or.inr ⟨List.mem_cons_self, Bool.not_eq_true _ ▸ hd⟩
      · exact (ih h).imp id (And.imp_left (List.mem_cons_of_mem d))

theorem dashSpaces_false_eq_nil {cs : List Char} : dashSpaces false cs = [] ↔ cs = [] := by
  constructor
  · intro h
    cases cs with
    | nil => rfl
    | cons c cs =>
      rw [dashSpaces] at h
      split at h <;> cases h
  · rintro rfl
    rfl

theorem trimChars_eq_self {cs : List Char} (h : ∀ c ∈ cs, isJsSpace c = false) :
    trimChars cs = cs := by
  have hdrop {ds : List Char} (hd : ∀ c ∈ ds, isJsSpace c = false) :
      ds.dropWhile isJsSpace = ds := by
    cases ds with
    | nil => rfl
    | cons d ds => rw [List.dropWhile_cons, hd d List.mem_cons_self, if_neg Bool.false_ne_true]
  rw [trimChars, hdrop h, hdrop fun c hc => h c (List.mem_reverse.mp hc), List.reverse_reverse]

/-- What is left of a text that is no blank still has its last character that is no space. -/
theorem trimChars_eq_nil {cs : List Char} : trimChars cs = [] ↔ ∀ c ∈ cs, isJsSpace c = true := by
  rw [trimChars, List.reverse_eq_nil_iff, List.dropWhile_eq_nil_iff]
  constructor
  · intro h
    rw [← List.dropWhile_eq_nil_iff]
    by_contra hne
    have hhead := List.head_dropWhile_not isJsSpace hne
    rw [h _ (List.mem_reverse.mpr (List.head_mem hne))] at hhead
    cases hhead
  · intro h c hc
    exact h c ((List.dropWhile_sublist _).mem (List.mem_reverse.mp hc))

section Keys

variable {P : PlanningPlatform} (hP : LowerCase P) (key : String)

include hP

/-- Nothing in a normalized key is a space or in upper case. -/
theorem mem_normalizeSemanticKey {c : Char} (hc : c ∈ (normalizeSemanticKey P key).toList) :
    isJsSpace c = false ∧ P.toLowerCase (String.singleton c) = String.singleton c := by
  rw [normalizeSemanticKey, String.toList_ofList] at hc
  rcases mem_dashSpaces hc with rfl | ⟨hc, hs⟩
  · exact ⟨by decide, hP.dash⟩
  · exact ⟨hs, hP.lowered _ c hc⟩

theorem normalizeSemanticKey_normalize :
    normalizeSemanticKey P (normalizeSemanticKey P key) = normalizeSemanticKey P key := by
  have hmem := fun c => mem_normalizeSemanticKey hP key (c := c)
  generalize normalizeSemanticKey P key = normal at hmem
  rw [normalizeSemanticKey, trimChars_eq_self fun c hc => (hmem c hc).1, String.ofList_toList,
    hP.unchanged normal fun c hc => (hmem c hc).2,
    dashSpaces_eq_self (fun c hc => (hmem c hc).1), String.ofList_toList]

theorem normalizeSemanticKey_eq_empty : normalizeSemanticKey P key = "" ↔ isBlank key = true := by
  have hlower (text : String) : P.toLowerCase text = "" ↔ text = "" := by
    constructor
    · exact hP.nonempty text
    · rintro rfl
      exact hP.unchanged "" nofun
  rw [← String.toList_eq_nil_iff, normalizeSemanticKey, String.toList_ofList,
    dashSpaces_false_eq_nil, String.toList_eq_nil_iff, hlower, ← String.toList_eq_nil_iff,
    String.toList_ofList, trimChars_eq_nil, isBlank, List.all_eq_true]

end Keys

/-! ## What was validated -/

/-- A check that leaves what it has answered as it is does so for a whole list. -/
theorem mapM_again {ε α : Type} {f : α → Except ε α} {xs ys : List α}
    (hf : ∀ x y, f x = .ok y → f y = .ok y) (h : xs.mapM f = .ok ys) : ys.mapM f = .ok ys := by
  induction xs generalizing ys with
  | nil =>
    cases h
    rfl
  | cons x xs ih =>
    rw [List.mapM_cons] at h
    obtain ⟨y, hy, h⟩ := bind_eq_ok.mp h
    obtain ⟨rest, hrest, h⟩ := bind_eq_ok.mp h
    cases h
    rw [List.mapM_cons, hf x y hy, ok_bind, ih hrest]
    rfl

section Again

variable {P : PlanningPlatform} (hP : LowerCase P) {document : PrdDocument}
  {claimKeys : List String}

include hP

theorem knownKey_again {message : String → String} {rawKey key : String}
    (h : knownKey P claimKeys message rawKey = .ok key) :
    knownKey P claimKeys message key = .ok key := by
  unfold knownKey at h
  dsimp only at h
  split at h
  · next hk =>
    cases h
    rw [knownKey, normalizeSemanticKey_normalize hP]
    exact if_pos hk
  · cases h

theorem knownKeys_again {message : String → String} {rawKeys keys : NonEmptyList String}
    (h : knownKeys P claimKeys message rawKeys = .ok keys) :
    knownKeys P claimKeys message keys = .ok keys := by
  obtain ⟨first, hfirst, h⟩ := bind_eq_ok.mp h
  obtain ⟨rest, hrest, h⟩ := bind_eq_ok.mp h
  cases h
  rw [knownKeys, knownKey_again hP hfirst, ok_bind,
    mapM_again (fun _ _ => knownKey_again hP) hrest]
  rfl

theorem validateStep_again {step validated : ProposedIntentStep}
    (h : validateStep P claimKeys step = .ok validated) :
    validateStep P claimKeys validated = .ok validated := by
  cases step with
  | navigate path =>
    obtain ⟨_, hleak, hv⟩ := bind_eq_ok.mp h
    cases hv
    exact h
  | click target =>
    obtain ⟨_, hleak, hv⟩ := bind_eq_ok.mp h
    cases hv
    exact h
  | input target valueRef =>
    obtain ⟨_, htarget, hv⟩ := bind_eq_ok.mp h
    obtain ⟨_, hvalue, hv⟩ := bind_eq_ok.mp hv
    cases hv
    exact h
  | verify rawKeys =>
    obtain ⟨keys, hkeys, h⟩ := bind_eq_ok.mp h
    cases h
    rw [validateStep, knownKeys_again hP hkeys]
    rfl

theorem validateTestCase_again {testCase validated : ProposedTestCase}
    (h : validateTestCase P document claimKeys testCase = .ok validated) :
    validateTestCase P document claimKeys validated = .ok validated := by
  obtain ⟨_, hrefs, h⟩ := bind_eq_ok.mp h
  obtain ⟨keys, hkeys, h⟩ := bind_eq_ok.mp h
  obtain ⟨first, hfirst, h⟩ := bind_eq_ok.mp h
  obtain ⟨rest, hrest, h⟩ := bind_eq_ok.mp h
  cases h
  dsimp only [validateTestCase]
  rw [hrefs, ok_bind, knownKeys_again hP hkeys, ok_bind, validateStep_again hP hfirst, ok_bind,
    mapM_again (fun _ _ => validateStep_again hP) hrest, ok_bind]

/-- A validated claim has its key normalized, and is validated again unless its key is empty. -/
theorem validateClaim_again {seenKeys : List String} {claim validated : ProposedExpectedClaim}
    (h : validateClaim P document seenKeys claim = .ok validated) :
    validated.semanticKey = normalizeSemanticKey P claim.semanticKey ∧
      validateClaim P document seenKeys validated =
        if validated.semanticKey = "" then
          fail .invalidPlanningProposal .missingProvenance
            "Every claim requires a semantic key and statement."
        else .ok validated := by
  unfold validateClaim at h
  dsimp only at h
  split at h
  · cases h
  · next hgiven =>
    split at h
    · cases h
    · next hfresh =>
      split at h
      · cases h
      · next hrange =>
        obtain ⟨_, hrefs, h⟩ := bind_eq_ok.mp h
        cases h
        refine ⟨rfl, ?_⟩
        rw [not_or] at hgiven
        by_cases hk : normalizeSemanticKey P claim.semanticKey = ""
        · rw [if_pos hk, validateClaim, if_pos (Or.inl hk)]
        · rw [if_neg hk, validateClaim, if_neg (not_or.mpr ⟨hk, hgiven.2⟩)]
          dsimp only
          rw [normalizeSemanticKey_normalize hP, if_neg hfresh, if_neg hrange, hrefs]
          rfl

/-- The refusal of a claim with an empty key. -/
def keyRequired {α : Type} : Validation α :=
  fail .invalidPlanningProposal .missingProvenance
    "Every claim requires a semantic key and statement."

theorem validateClaims_again {seenKeys : List String}
    {claims validated : List ProposedExpectedClaim}
    (h : validateClaims P document seenKeys claims = .ok validated) :
    validateClaims P document seenKeys validated =
      if ∃ claim ∈ validated, claim.semanticKey = "" then keyRequired else .ok validated := by
  induction claims generalizing seenKeys validated with
  | nil =>
    cases h
    simp [validateClaims]
  | cons claim claims ih =>
    obtain ⟨first, hfirst, h⟩ := bind_eq_ok.mp h
    obtain ⟨rest, hrest, h⟩ := bind_eq_ok.mp h
    cases h
    rw [validateClaims, (validateClaim_again hP hfirst).2]
    by_cases hk : first.semanticKey = ""
    · rw [if_pos hk, if_pos ⟨first, List.mem_cons_self, hk⟩]
      rfl
    · rw [if_neg hk, ok_bind, ih hrest]
      simp only [List.mem_cons, exists_eq_or_imp, hk, false_or]
      split <;> rfl

theorem keys_of_validateClaims {seenKeys : List String}
    {claims validated : List ProposedExpectedClaim}
    (h : validateClaims P document seenKeys claims = .ok validated) :
    validated.map (·.semanticKey) = claims.map fun c => normalizeSemanticKey P c.semanticKey := by
  induction claims generalizing seenKeys validated with
  | nil =>
    cases h
    rfl
  | cons claim claims ih =>
    obtain ⟨first, hfirst, h⟩ := bind_eq_ok.mp h
    obtain ⟨rest, hrest, h⟩ := bind_eq_ok.mp h
    cases h
    rw [List.map_cons, List.map_cons, (validateClaim_again hP hfirst).1, ih hrest]

/-- A validated proposal is validated again with the same result, unless a key is empty. -/
theorem validate_again {proposal validated : TestPlanProposal}
    (h : validate P document proposal = .ok validated) :
    validate P document validated =
      if ∃ claim ∈ validated.expectedClaims, claim.semanticKey = "" then keyRequired
      else .ok validated := by
  unfold validate at h
  split at h
  · cases h
  · next hfull =>
    obtain ⟨claims, hclaims, h⟩ := bind_eq_ok.mp h
    obtain ⟨_, hcontradiction, h⟩ := bind_eq_ok.mp h
    obtain ⟨testCases, hcases, h⟩ := bind_eq_ok.mp h
    cases h
    have hfull' : ¬ (claims = [] ∨ testCases = []) := by
      have hkeys := congrArg List.length (keys_of_validateClaims hP hclaims)
      have hunits : testCases.map (fun _ => ()) = proposal.testCases.map fun _ => () :=
        map_eq_of_mapM (fun _ _ _ => rfl) hcases
      have hlength := congrArg List.length hunits
      simp only [List.length_map] at hkeys hlength
      rw [← List.length_eq_zero_iff, ← List.length_eq_zero_iff, hkeys, hlength,
        List.length_eq_zero_iff, List.length_eq_zero_iff]
      exact hfull
    rw [validate, if_neg hfull', validateClaims_again hP hclaims]
    split
    · rfl
    · rw [ok_bind, hcontradiction, ok_bind,
        mapM_again (fun _ _ => validateTestCase_again hP) hcases]
      rfl

end Again

/-! ## From a draft back to its proposal -/

/-- The keys that a step verifies are among some keys. -/
def ProposedIntentStep.Refers (keys : List String) : ProposedIntentStep → Prop
  | verify claimSemanticKeys => ∀ key ∈ claimSemanticKeys.toList, key ∈ keys
  | _ => True

/-- The keys that a test case names are among some keys. -/
structure ProposedTestCase.Refers (keys : List String) (t : ProposedTestCase) : Prop where
  expected : ∀ key ∈ t.expectedClaimSemanticKeys.toList, key ∈ keys
  steps : ∀ step ∈ t.steps.toList, step.Refers keys

section References

variable {P : PlanningPlatform} {document : PrdDocument} {claimKeys : List String}

theorem mem_of_knownKeys {message : String → String} {rawKeys keys : NonEmptyList String}
    (h : knownKeys P claimKeys message rawKeys = .ok keys) :
    ∀ key ∈ keys.toList, key ∈ claimKeys := by
  have hknown {rawKey key : String} (hk : knownKey P claimKeys message rawKey = .ok key) :
      key ∈ claimKeys := by
    unfold knownKey at hk
    dsimp only at hk
    split at hk
    · next hmem =>
      cases hk
      exact hmem
    · cases hk
  obtain ⟨first, hfirst, h⟩ := bind_eq_ok.mp h
  obtain ⟨rest, hrest, h⟩ := bind_eq_ok.mp h
  cases h
  intro key hkey
  rcases List.mem_cons.mp hkey with rfl | hkey
  · exact hknown hfirst
  · obtain ⟨rawKey, -, hraw⟩ := exists_of_mapM hrest key hkey
    exact hknown hraw

theorem refers_of_validateStep {step validated : ProposedIntentStep}
    (h : validateStep P claimKeys step = .ok validated) : validated.Refers claimKeys := by
  cases step with
  | navigate path =>
    obtain ⟨_, -, h⟩ := bind_eq_ok.mp h
    cases h
    trivial
  | click target =>
    obtain ⟨_, -, h⟩ := bind_eq_ok.mp h
    cases h
    trivial
  | input target valueRef =>
    obtain ⟨_, -, h⟩ := bind_eq_ok.mp h
    obtain ⟨_, -, h⟩ := bind_eq_ok.mp h
    cases h
    trivial
  | verify rawKeys =>
    obtain ⟨keys, hkeys, h⟩ := bind_eq_ok.mp h
    cases h
    exact mem_of_knownKeys hkeys

theorem refers_of_validateTestCase {testCase validated : ProposedTestCase}
    (h : validateTestCase P document claimKeys testCase = .ok validated) :
    validated.Refers claimKeys := by
  obtain ⟨_, -, h⟩ := bind_eq_ok.mp h
  obtain ⟨keys, hkeys, h⟩ := bind_eq_ok.mp h
  obtain ⟨first, hfirst, h⟩ := bind_eq_ok.mp h
  obtain ⟨rest, hrest, h⟩ := bind_eq_ok.mp h
  cases h
  constructor
  · exact mem_of_knownKeys hkeys
  · intro step hstep
    rcases List.mem_cons.mp hstep with rfl | hstep
    · exact refers_of_validateStep hfirst
    · obtain ⟨s, -, hs⟩ := exists_of_mapM hrest step hstep
      exact refers_of_validateStep hs

end References

section Drafts

/-- A list whose entries are compiled, and are what they were when they are turned back. -/
theorem mapM_back {ε α β γ : Type} {f : α → Except ε β} {g : β → γ} {k : α → γ} {xs : List α}
    (h : ∀ x ∈ xs, ∃ y, f x = .ok y ∧ g y = k x) :
    ∃ ys, xs.mapM f = .ok ys ∧ ys.map g = xs.map k := by
  induction xs with
  | nil => exact ⟨[], rfl, rfl⟩
  | cons x xs ih =>
    obtain ⟨y, hy, hg⟩ := h x List.mem_cons_self
    obtain ⟨ys, hys, hgs⟩ := ih fun z hz => h z (List.mem_cons_of_mem x hz)
    refine ⟨y :: ys, ?_, by rw [List.map_cons, List.map_cons, hg, hgs]⟩
    rw [List.mapM_cons, hy, ok_bind, hys]
    rfl

variable {claims : NonEmptyList ExpectedClaim}
  (hids : (claims.toList.map (·.claimId)).Nodup)

theorem exists_claimOfKey {key : String} (h : key ∈ claims.toList.map (·.semanticKey)) :
    ∃ claim ∈ claims.toList, claimOfKey claims.toList key = some claim ∧
      claim.semanticKey = key := by
  obtain ⟨claim, hclaim, hkey⟩ := List.mem_map.mp h
  have hsome : (claimOfKey claims.toList key).isSome := by
    rw [claimOfKey, List.find?_isSome]
    exact ⟨claim, List.mem_reverse.mpr hclaim, by simpa using hkey⟩
  obtain ⟨found, hfound⟩ := Option.isSome_iff_exists.mp hsome
  refine ⟨found, List.mem_reverse.mp (List.mem_of_find?_eq_some hfound), hfound, ?_⟩
  simpa using List.find?_some hfound

theorem expectedClaim_back {key : String} (h : key ∈ claims.toList.map (·.semanticKey)) :
    ∃ claim, expectedClaim claims.toList key = .ok claim ∧ claim.semanticKey = key := by
  obtain ⟨claim, -, hfound, hkey⟩ := exists_claimOfKey h
  exact ⟨claim, by rw [expectedClaim, hfound], hkey⟩

include hids

/-- The identity of a claim leads back to its key. -/
theorem keyOfClaimId_of_mem {claim : ExpectedClaim} (h : claim ∈ claims.toList) :
    keyOfClaimId claims claim.claimId = claim.semanticKey := by
  have hsome : (claims.toList.reverse.find? fun c => c.claimId = claim.claimId).isSome := by
    rw [List.find?_isSome]
    exact ⟨claim, List.mem_reverse.mpr h, by simp⟩
  obtain ⟨found, hfound⟩ := Option.isSome_iff_exists.mp hsome
  have hmem := List.mem_reverse.mp (List.mem_of_find?_eq_some hfound)
  have hid : found.claimId = claim.claimId := by simpa using List.find?_some hfound
  obtain rfl := List.inj_on_of_nodup_map hids hmem h hid
  rw [keyOfClaimId, hfound]
  rfl

theorem claimIdOfKey_back {key : String} (h : key ∈ claims.toList.map (·.semanticKey)) :
    ∃ claimId, claimIdOfKey claims.toList key = .ok claimId ∧
      keyOfClaimId claims claimId = key := by
  obtain ⟨claim, hclaim, hfound, hkey⟩ := exists_claimOfKey h
  refine ⟨claim.claimId, by rw [claimIdOfKey, hfound], ?_⟩
  rw [keyOfClaimId_of_mem hids hclaim, hkey]

theorem compileStep_back {step : ProposedIntentStep}
    (h : step.Refers (claims.toList.map (·.semanticKey))) :
    ∃ compiled, compileStep claims.toList step = .ok compiled ∧
      toProposedStep claims compiled = step := by
  cases step with
  | navigate path => exact ⟨_, rfl, rfl⟩
  | click target => exact ⟨_, rfl, rfl⟩
  | input target valueRef => exact ⟨_, rfl, rfl⟩
  | verify keys =>
    obtain ⟨first, hfirst, hback⟩ := claimIdOfKey_back hids (h keys.first List.mem_cons_self)
    obtain ⟨rest, hrest, hbacks⟩ := mapM_back (f := claimIdOfKey claims.toList) (k := id)
      fun key hkey => claimIdOfKey_back hids (h key (List.mem_cons_of_mem _ hkey))
    refine ⟨.verify ⟨first, rest⟩, ?_, ?_⟩
    · rw [compileStep, hfirst, ok_bind, hrest]
      rfl
    · rw [toProposedStep, NonEmptyList.map, hback, hbacks, List.map_id]

/-- The test case that a compiled one is validated as. -/
def TestCase.proposed (claims : NonEmptyList ExpectedClaim) (t : TestCase) : ProposedTestCase where
  title := t.title
  objective := t.objective
  preconditions := t.preconditions
  steps := NonEmptyList.map (toProposedStep claims) t.steps
  expectedClaimSemanticKeys := NonEmptyList.map (·.semanticKey) t.expectedClaims
  sourceRefs := t.sourceRefs
  priority := t.priority

theorem compileTestCase_back {id : String} {t : ProposedTestCase}
    (h : t.Refers (claims.toList.map (·.semanticKey))) :
    ∃ compiled, compileTestCase claims.toList id t = .ok compiled ∧
      compiled.proposed claims = t := by
  obtain ⟨firstStep, hfs, hfsback⟩ :=
    compileStep_back hids (h.steps t.steps.first List.mem_cons_self)
  obtain ⟨restSteps, hrs, hrsback⟩ := mapM_back (f := compileStep claims.toList) (k := fun s => s)
    fun s hs => compileStep_back hids (h.steps s (List.mem_cons_of_mem _ hs))
  obtain ⟨firstClaim, hfc, hfcback⟩ := expectedClaim_back
    (h.expected t.expectedClaimSemanticKeys.first List.mem_cons_self)
  obtain ⟨restClaims, hrc, hrcback⟩ := mapM_back (f := expectedClaim claims.toList)
    (k := fun key => key) fun key hkey =>
      expectedClaim_back (h.expected key (List.mem_cons_of_mem _ hkey))
  let compiled : TestCase :=
    { id, title := t.title, objective := t.objective, preconditions := t.preconditions
      steps := ⟨firstStep, restSteps⟩, expectedClaims := ⟨firstClaim, restClaims⟩
      sourceRefs := t.sourceRefs, priority := t.priority }
  refine ⟨compiled, ?_, ?_⟩
  · rw [compileTestCase, hfs, ok_bind, hrs, ok_bind, hfc, ok_bind, hrc, ok_bind]
  · simp only [TestCase.proposed, compiled, NonEmptyList.map, hfsback, hrsback, hfcback, hrcback,
      List.map_id']

omit hids

/-- The draft of a proposal whose keys are those of its claims is turned back into the proposal. -/
theorem createDraftTestPlan_back {proposal : TestPlanProposal} {id : ℕ → String}
    (hid : Function.Injective id) (hclaims : proposal.expectedClaims ≠ [])
    (hcases : proposal.testCases ≠ [])
    (hrefers : ∀ t ∈ proposal.testCases,
      t.Refers (proposal.expectedClaims.map (·.semanticKey)))
    (projectId prdId : String) (prdRevision : Int) :
    ∃ plan, createDraftTestPlan projectId prdId prdRevision proposal id = .ok plan ∧
      proposalFromPlan plan = proposal := by
  obtain ⟨expectedClaims, testCases⟩ := proposal
  dsimp only at hclaims hcases hrefers
  cases hc : expectedClaims.zipIdx.map fun entry => toFinalClaim entry.1 (id entry.2) with
  | nil =>
    rw [List.map_eq_nil_iff, List.zipIdx_eq_nil_iff] at hc
    exact absurd hc hclaims
  | cons first rest =>
    have hback {γ : Type} (k : ProposedExpectedClaim → γ) (g : ExpectedClaim → γ)
        (hg : ∀ claim claimId, g (toFinalClaim claim claimId) = k claim) :
        (first :: rest).map g = expectedClaims.map k := by
      rw [← hc, List.map_map]
      conv_rhs => rw [← List.zipIdx_map_fst 0 expectedClaims, List.map_map]
      exact List.map_congr_left fun entry _ => hg entry.1 (id entry.2)
    have hids : ((⟨first, rest⟩ : NonEmptyList ExpectedClaim).toList.map (·.claimId)).Nodup := by
      have hmap : (first :: rest).map (·.claimId) =
          (expectedClaims.zipIdx.map Prod.snd).map id := by
        rw [← hc, List.map_map, List.map_map]
        rfl
      rw [NonEmptyList.toList, hmap, List.zipIdx_map_snd]
      exact List.Nodup.map hid (List.nodup_range' _)
    have hkeys := hback (·.semanticKey) (·.semanticKey) fun _ _ => rfl
    rw [← hkeys] at hrefers
    have hcompile : ∀ entry ∈ testCases.zipIdx expectedClaims.length, ∃ compiled,
        compileTestCase (first :: rest) (id entry.2) entry.1 = .ok compiled ∧
          compiled.proposed ⟨first, rest⟩ = entry.1 := fun entry he =>
      compileTestCase_back hids (hrefers entry.1 (List.fst_mem_of_mem_zipIdx he))
    obtain ⟨compiled, hcompiled, hcasesback⟩ := mapM_back hcompile
    rw [List.zipIdx_map_fst] at hcasesback
    cases compiled with
    | nil => exact absurd hcasesback.symm hcases
    | cons firstCase restCases =>
      let plan : TestPlanRevision :=
        { planId := id (expectedClaims.length + testCases.length)
          projectId, prdId, prdRevision, version := 1, status := .draft
          expectedClaims := ⟨first, rest⟩, testCases := ⟨firstCase, restCases⟩, approval := none }
      refine ⟨plan, ?_, ?_⟩
      · rw [createDraftTestPlan]
        dsimp only
        rw [hc, hcompiled, ok_bind]
      · have hclaimsback : (first :: rest).map (fun claim : ExpectedClaim =>
            (⟨claim.semanticKey, claim.statement, claim.sourceRefs, claim.confidence⟩ :
              ProposedExpectedClaim)) = expectedClaims := by
          rw [hback (fun claim => claim) _ fun _ _ => rfl, List.map_id']
        rw [TestPlanProposal.mk.injEq]
        exact ⟨hclaimsback, hcasesback⟩

end Drafts

/-! ## Approval -/

section Approval

variable {P : PlanningPlatform}

/-- A validated proposal is one of claims and test cases that refer to each other. -/
theorem refers_of_validate (hP : LowerCase P) {document : PrdDocument}
    {proposal validated : TestPlanProposal} (h : validate P document proposal = .ok validated) :
    validated.expectedClaims ≠ [] ∧ validated.testCases ≠ [] ∧
      (∀ t ∈ validated.testCases, t.Refers (validated.expectedClaims.map (·.semanticKey))) ∧
      validated.expectedClaims.map (·.semanticKey) =
        proposal.expectedClaims.map fun c => normalizeSemanticKey P c.semanticKey := by
  unfold validate at h
  split at h
  · cases h
  · next hfull =>
    obtain ⟨claims, hclaims, h⟩ := bind_eq_ok.mp h
    obtain ⟨_, -, h⟩ := bind_eq_ok.mp h
    obtain ⟨testCases, hcases, h⟩ := bind_eq_ok.mp h
    cases h
    have hkeys := keys_of_validateClaims hP hclaims
    have hunits : testCases.map (fun _ => ()) = proposal.testCases.map fun _ => () :=
      map_eq_of_mapM (fun _ _ _ => rfl) hcases
    rw [not_or] at hfull
    refine ⟨?_, ?_, ?_, hkeys⟩
    · rintro rfl
      exact hfull.1 (List.map_eq_nil_iff.mp hkeys.symm)
    · rintro rfl
      exact hfull.2 (List.map_eq_nil_iff.mp hunits.symm)
    · intro t ht
      obtain ⟨proposed, -, hp⟩ := exists_of_mapM hcases t ht
      exact refers_of_validateTestCase hp

/-- Storing an approval raises no error of validation. -/
theorem approveStored_ne_service {command : ApproveTestPlanInput} {now : Timestamp}
    {db : MissionDb} {code : TestPlanServiceErrorCode} {message : String} :
    approveStored command now db ≠ .error (.service code message) := by
  unfold approveStored
  dsimp only
  repeat' split
  all_goals
    intro h
    cases h

/-- The draft of a validated proposal is validated once more with the same result, and its approval
stored, exactly when each of the proposed keys has a character that is no space. -/
theorem draft_validates_again_iff (hP : LowerCase P) {id : ℕ → String}
    (hid : Function.Injective id) {document : PrdDocument} {proposal validated : TestPlanProposal}
    (hv : validate P document proposal = .ok validated) (projectId prdId : String)
    (prdRevision : Int) :
    ∃ plan, createDraftTestPlan projectId prdId prdRevision validated id = .ok plan ∧
      (validate P document (proposalFromPlan plan) = .ok validated ↔
        ∀ claim ∈ proposal.expectedClaims, isBlank claim.semanticKey = false) ∧
      ∀ (db : MissionDb) (command : ApproveTestPlanInput) (now : Timestamp),
        latestPlan db command.planId = some plan →
        db.documents.get (plan.prdId, plan.prdRevision) = some document →
        document.projectId = plan.projectId →
        (approvePlan P command now db = approveStored command now db ↔
          ∀ claim ∈ proposal.expectedClaims, isBlank claim.semanticKey = false) := by
  obtain ⟨hclaims, hcases, hrefers, hkeys⟩ := refers_of_validate hP hv
  obtain ⟨plan, hplan, hback⟩ :=
    createDraftTestPlan_back hid hclaims hcases hrefers projectId prdId prdRevision
  have hblank : (∃ claim ∈ validated.expectedClaims, claim.semanticKey = "") ↔
      ¬ ∀ claim ∈ proposal.expectedClaims, isBlank claim.semanticKey = false := by
    have hmem : "" ∈ validated.expectedClaims.map (·.semanticKey) ↔
        ∃ claim ∈ proposal.expectedClaims, isBlank claim.semanticKey = true := by
      rw [hkeys, List.mem_map]
      simp only [normalizeSemanticKey_eq_empty hP]
    simpa [List.mem_map] using hmem
  have hagain : validate P document (proposalFromPlan plan) =
      if ∀ claim ∈ proposal.expectedClaims, isBlank claim.semanticKey = false then .ok validated
      else keyRequired := by
    rw [hback, validate_again hP hv]
    by_cases hall : ∀ claim ∈ proposal.expectedClaims, isBlank claim.semanticKey = false
    · rw [if_pos hall, if_neg fun h => hblank.mp h hall]
    · rw [if_neg hall, if_pos (hblank.mpr hall)]
  refine ⟨plan, hplan, ?_, ?_⟩
  · rw [hagain]
    split
    · next hall => exact iff_of_true rfl hall
    · next hall => exact iff_of_false nofun hall
  · intro db command now hlatest hdocument hproject
    rw [approvePlan, hlatest]
    dsimp only
    rw [hdocument]
    dsimp only
    rw [if_neg (not_not.mpr hproject), hagain]
    split
    · next hall => exact iff_of_true rfl hall
    · next hall => exact iff_of_false (fun h => approveStored_ne_service h.symm) hall

end Approval

/-! ## A key of words and a key of spaces -/

theorem toLower_toLower (c : Char) : c.toLower.toLower = c.toLower := by
  by_cases h : c.val ≥ 'A'.val ∧ c.val ≤ 'Z'.val
  · have hl : c.toLower.val = c.val + ('a'.val - 'A'.val) :=
      congrArg Char.val (dif_pos h : c.toLower = _)
    have hn : ¬ (c.toLower.val ≥ 'A'.val ∧ c.toLower.val ≤ 'Z'.val) := by
      rw [hl]
      rintro ⟨-, hz⟩
      simp only [ge_iff_le, UInt32.le_iff_toNat_le, UInt32.toNat_add] at h hz
      have ha : ('A'.val).toNat = 65 := rfl
      have hd : ('a'.val - 'A'.val).toNat = 32 := rfl
      have hz' : ('Z'.val).toNat = 90 := rfl
      omega
    exact (dif_neg hn : c.toLower.toLower = c.toLower)
  · have hl : c.toLower = c := dif_neg h
    rw [hl, hl]

theorem samplePlanning_lowerCase : LowerCase samplePlanning where
  lowered text c hc := by
    change c ∈ (String.ofList (text.toList.map Char.toLower)).toList at hc
    rw [String.toList_ofList] at hc
    obtain ⟨d, -, rfl⟩ := List.mem_map.mp hc
    change String.ofList ((String.singleton d.toLower).toList.map Char.toLower) = _
    rw [String.toList_singleton, List.map_singleton, toLower_toLower]
    rfl
  unchanged text h := by
    have hc : ∀ c ∈ text.toList, c.toLower = c := by
      intro c hc
      have hs : String.ofList ((String.singleton c).toList.map Char.toLower) =
          String.singleton c := h c hc
      have hl := congrArg String.toList hs
      rw [String.toList_ofList, String.toList_singleton] at hl
      exact List.singleton_inj.mp hl
    change String.ofList (text.toList.map Char.toLower) = text
    rw [List.map_congr_left hc, List.map_id', String.ofList_toList]
  dash := rfl
  nonempty text h := by
    change String.ofList (text.toList.map Char.toLower) = "" at h
    rw [← String.toList_eq_nil_iff, String.toList_ofList, List.map_eq_nil_iff] at h
    exact String.toList_eq_nil_iff.mp h

def pageSourceRef : PrdSourceRef := ⟨"prd", 1, 0, 15, sampleContentHash⟩

/-- A claim and a test case with a key. -/
def pageProposal (semanticKey : String) : TestPlanProposal where
  expectedClaims := [⟨semanticKey, "The page opens", ⟨pageSourceRef, []⟩, .int 1⟩]
  testCases := [{
    title := "Open", objective := "Open the page", preconditions := []
    steps := ⟨.navigate "/", [.verify ⟨semanticKey, []⟩]⟩
    expectedClaimSemanticKeys := ⟨semanticKey, []⟩
    sourceRefs := ⟨pageSourceRef, []⟩, priority := .high }]

/-- Identities of different lengths. -/
def tallyId (n : ℕ) : String := String.ofList (List.replicate n 'i')

theorem tallyId_injective : Function.Injective tallyId := by
  intro m n h
  have hl := congrArg String.toList h
  rw [tallyId, tallyId, String.toList_ofList, String.toList_ofList] at hl
  simpa using congrArg List.length hl

theorem draft_validates_again_iff_page :
    ∃ plan, createDraftTestPlan "project" "prd" 1 (pageProposal "page-opens") tallyId = .ok plan ∧
      (validate samplePlanning sampleDocument (proposalFromPlan plan) =
          .ok (pageProposal "page-opens") ↔
        ∀ claim ∈ (pageProposal "Page Opens").expectedClaims,
          isBlank claim.semanticKey = false) ∧
      ∀ (db : MissionDb) (command : ApproveTestPlanInput) (now : Timestamp),
        latestPlan db command.planId = some plan →
        db.documents.get (plan.prdId, plan.prdRevision) = some sampleDocument →
        sampleDocument.projectId = plan.projectId →
        (approvePlan samplePlanning command now db = approveStored command now db ↔
          ∀ claim ∈ (pageProposal "Page Opens").expectedClaims,
            isBlank claim.semanticKey = false) :=
  draft_validates_again_iff samplePlanning_lowerCase tallyId_injective (by decide)
    "project" "prd" 1

/-- A proposal whose key is a space is accepted and drafted, and its draft is refused. -/
theorem space_key_not_approved :
    validate samplePlanning sampleDocument (pageProposal " ") = .ok (pageProposal "") ∧
    ∃ plan, createDraftTestPlan "project" "prd" 1 (pageProposal "") tallyId = .ok plan ∧
      validate samplePlanning sampleDocument (proposalFromPlan plan) =
        fail .invalidPlanningProposal .missingProvenance
          "Every claim requires a semantic key and statement." := by
  refine ⟨by decide, _, rfl, ?_⟩
  decide

end Qualigence.Mission
