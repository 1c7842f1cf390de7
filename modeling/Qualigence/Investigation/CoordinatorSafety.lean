import Qualigence.Investigation.Coordinator

/-! # What an investigation concludes

Whatever the model and the runner answer, an investigation that ends is confirmed or handed over.
Its attempts are those of the runner, the runner reproduces accepted plans only, and a confirmation
needs an attempt of the runner that reproduced the finding.
-/

namespace Qualigence.Investigation

open Foundation Foundation.Program Intelligence InvestigationCase InvestigationBudgetLedger

/-! ## Keys -/

def startKey (caseId : String) : String := caseId ++ ":start"
def planKey (caseId : String) (revision : ℕ) : String := caseId ++ ":plan:" ++ toString revision
def attemptKey (caseId attemptId : String) : String := caseId ++ ":attempt:" ++ attemptId

theorem key_ne (caseId x x' : String) {tag tag' : String}
    (h : tag.toList.take 3 ≠ tag'.toList.take 3) (htag : 3 ≤ tag.toList.length)
    (htag' : 3 ≤ tag'.toList.length) : caseId ++ tag ++ x ≠ caseId ++ tag' ++ x' := by
  intro he
  rw [String.append_assoc, String.append_assoc, String.append_right_inj] at he
  have hlist := congrArg (fun s => s.toList.take 3) he
  simp only [String.toList_append, List.take_append_of_le_length htag,
    List.take_append_of_le_length htag'] at hlist
  exact h hlist

theorem planKey_injective {caseId : String} {r r' : ℕ} (h : planKey caseId r = planKey caseId r') :
    r = r' := by
  rw [planKey, planKey, String.append_right_inj] at h
  exact Nat.repr_injective h

theorem attemptKey_injective {caseId id id' : String}
    (h : attemptKey caseId id = attemptKey caseId id') : id = id' := by
  rwa [attemptKey, attemptKey, String.append_right_inj] at h

theorem startKey_ne {caseId tag x : String} (h : ":start".toList.take 3 ≠ tag.toList.take 3)
    (htag : 3 ≤ tag.toList.length) : startKey caseId ≠ caseId ++ tag ++ x := by
  have hne := key_ne caseId "" x h (by decide) htag
  rwa [String.append_empty] at hne

/-! ## Commands that are taken -/

namespace InvestigationCase

variable {c c' : InvestigationCase} {t : InvestigationTransition} {key : String}

theorem transact_body {base : InvestigationCommandBase} (legal : List InvestigationStatus)
    (toStatus : InvestigationStatus) (body : Outcome) (hr : c.replay base = none)
    (hs : c.status ∈ legal) (hv : base.expectedVersion = c.version) :
    c.transact base legal toStatus body = body := by
  rw [transact, hr]
  dsimp only
  rw [if_neg (not_not.mpr hs), if_neg (not_not.mpr hv)]

theorem commits_of_ok {command : InvestigationCommand} (hr : c.replay command.base = none)
    (h : c.apply command = (.ok t, c')) : c.Commits command t c' := by
  have hdoes := does_apply c command
  rw [h] at hdoes
  cases hdoes with
  | answers hanswer => exact absurd (hr.symm.trans hanswer) (by simp)
  | commits ht => exact ht

theorem startReproduction_taken (hr : c.replay ⟨c.version, key⟩ = none)
    (hs : c.status = .investigating ∨ c.status = .reproducing) :
    ∃ t c', c.apply (.startReproduction ⟨c.version, key⟩) = (.ok t, c') ∧
      c'.attempts = c.attempts ∧ (t.toStatus = .reproducing ∨ t.toStatus = .needs_human) := by
  have hbody : c.apply (.startReproduction ⟨c.version, key⟩) = _ :=
    transact_body [.investigating, .reproducing] .reproducing _ hr (by simpa using hs) rfl
  rw [hbody]
  split
  · exact ⟨_, _, rfl, rfl, .inr rfl⟩
  · exact ⟨_, _, rfl, rfl, .inl rfl⟩

theorem escalateToHuman_taken (draft : HumanHandoffDraft) (hr : c.replay ⟨c.version, key⟩ = none)
    (hs : c.status = .investigating ∨ c.status = .reproducing) :
    ∃ t c', c.apply (.escalateToHuman ⟨c.version, key⟩ draft) = (.ok t, c') ∧
      c'.attempts = c.attempts ∧ t.toStatus = .needs_human := by
  have hbody : c.apply (.escalateToHuman ⟨c.version, key⟩ draft) = _ :=
    transact_body [.investigating, .reproducing] .needs_human _ hr (by simpa using hs) rfl
  rw [hbody]
  exact ⟨_, _, rfl, rfl, rfl⟩

/-- An attempt under a new key is appended, or it reports an amount that is refused. -/
theorem appendAttempt_taken (draft : ReproductionAttemptDraft)
    (hr : c.replay ⟨c.version, key⟩ = none) (hs : c.status = .reproducing) :
    (∃ t c', c.apply (.appendAttempt ⟨c.version, key⟩ draft) = (.ok t, c') ∧
      c'.attempts = c.attempts ++ [c.stamp draft] ∧
      (t.toStatus = .reproducing ∨ t.toStatus = .needs_human)) ∨
    ∃ dimension c', c.apply (.appendAttempt ⟨c.version, key⟩ draft) =
      (.error (.invalidAmount dimension), c') ∧ ¬ ValidConsumption draft.budgetConsumed := by
  have hbody : c.apply (.appendAttempt ⟨c.version, key⟩ draft) = _ :=
    transact_body [.reproducing] .reproducing _ hr (by simpa using hs) rfl
  rw [hbody]
  dsimp only
  split
  next dimension hconsumed =>
    refine .inr ⟨dimension, _, rfl, fun hvalid => ?_⟩
    have hok : (consumeAttempt c.usage (c.stamp draft)).1 = .ok () := consumeAttempt_of_valid hvalid
    rw [hok] at hconsumed
    cases hconsumed
  · split
    · exact .inl ⟨_, _, rfl, rfl, .inr rfl⟩
    · exact .inl ⟨_, _, rfl, rfl, .inl rfl⟩

/-- A confirmation under a new key is taken, or rejected without an effect. -/
theorem confirm_taken (draft : BugEpisodeDraft) (hr : c.replay ⟨c.version, key⟩ = none)
    (hs : c.status = .reproducing) :
    (∃ t c', c.apply (.confirm ⟨c.version, key⟩ draft) = (.ok t, c') ∧
      c'.attempts = c.attempts ∧ t.toStatus = .confirmed ∧
      c'.bugEpisode = some { draft with caseId := c.caseId, findingId := c.findingId }) ∨
    ∃ error, c.apply (.confirm ⟨c.version, key⟩ draft) = (.error error, c) ∧
      error.rejectsConfirmation := by
  have hbody : c.apply (.confirm ⟨c.version, key⟩ draft) = _ :=
    transact_body [.reproducing] .confirmed _ hr (by simpa using hs) rfl
  rw [hbody]
  dsimp only
  split
  · exact .inr ⟨_, rfl, rfl⟩
  split
  · exact .inr ⟨_, rfl, rfl⟩
  split
  · exact .inr ⟨_, rfl, rfl⟩
  · exact .inl ⟨_, _, rfl, rfl, rfl, rfl⟩

/-- A case in progress has neither a bug episode nor a handoff. -/
theorem Storable.none_of_status (h : c.Storable)
    (hs : c.status = .investigating ∨ c.status = .reproducing) :
    c.bugEpisode = none ∧ c.handoff = none := by
  have hrank : ¬ 3 ≤ c.status.rank := by
    rcases hs with hs | hs <;> rw [hs] <;> decide
  constructor
  · cases he : c.bugEpisode with
    | none => rfl
    | some episode => exact absurd (h.ended (.inl (he ▸ rfl))) hrank
  · cases hh : c.handoff with
    | none => rfl
    | some handoff => exact absurd (h.ended (.inr (hh ▸ rfl))) hrank

end InvestigationCase

/-! ## What the ports answered -/

structure Told where
  planning : Option (IntelligenceJob × IntelligenceResult)
  attempts : List ReproductionAttemptDraft
  threw : Bool

def Told.next (m : Told) :
    (op : CoordinatorOp) → Except CoordinatorError op.Reply → Told
  | .proposeReproductionPlan job _, .ok result => { m with planning := some (job, result) }
  | .reproduce _, .ok (draft : ReproductionAttemptDraft) =>
    { m with attempts := m.attempts ++ [draft] }
  | _, .error _ => { m with threw := true }
  | _, .ok _ => m

/-- An attempt whose id was used before is not counted again. -/
def keepFirst (kept : List ReproductionAttemptDraft) (draft : ReproductionAttemptDraft) :
    List ReproductionAttemptDraft :=
  if kept.any fun other => other.attemptId = draft.attemptId then kept else kept ++ [draft]

def firstOfEach (drafts : List ReproductionAttemptDraft) : List ReproductionAttemptDraft :=
  drafts.foldl keepFirst []

theorem firstOfEach_snoc (drafts : List ReproductionAttemptDraft)
    (draft : ReproductionAttemptDraft) :
    firstOfEach (drafts ++ [draft]) = keepFirst (firstOfEach drafts) draft := by
  rw [firstOfEach, List.foldl_append]
  rfl

theorem exists_of_mem_drafts {drafts : List ReproductionAttemptDraft}
    {draft : ReproductionAttemptDraft} (h : draft ∈ drafts) :
    ∃ kept ∈ firstOfEach drafts, kept.attemptId = draft.attemptId := by
  induction drafts using List.reverseRecOn with
  | nil => cases h
  | append_singleton drafts last ih =>
    rw [firstOfEach_snoc, keepFirst]
    rcases List.mem_append.mp h with h | h
    · obtain ⟨kept, hkept, he⟩ := ih h
      split
      · exact ⟨kept, hkept, he⟩
      · exact ⟨kept, List.mem_append_left _ hkept, he⟩
    · obtain rfl := List.mem_singleton.mp h
      split
      next hany =>
        obtain ⟨kept, hkept, he⟩ := List.any_eq_true.mp hany
        exact ⟨kept, hkept, of_decide_eq_true he⟩
      · exact ⟨draft, List.mem_append_right _ List.mem_cons_self, rfl⟩

section Safety

variable (config : InvestigationCoordinatorConfig) (input : InvestigateInput)

/-- The runner reproduces a plan that came through the gate, and an analysis is asked for after an
attempt that reproduced the finding. -/
def Allowed (m : Told) : CoordinatorOp → Prop
  | .reproduce plan => m.attempts.length < config.maxPlanRevisions ∧
    ∃ job result, m.planning = some (job, result) ∧ Passes job result ∧
      reproductionPlanFromResult input.caseId plan.planRevision result = .ok plan
  | .analyzeBug _ _ => ∃ draft, m.attempts.getLast? = some draft ∧ draft.outcome = .reproduced
  | .newId | .proposeReproductionPlan _ _ => True

/-- What a confirmed outcome is backed by. -/
structure ConfirmedBy (o : InvestigationOutcome) (episode : BugEpisode) : Prop where
  bugEpisode : o.bugEpisode = some episode
  handoff : o.handoff = none
  confidence : input.budget.confirmationConfidenceThreshold ≤ episode.confidence ∧
    episode.confidence ≤ 1
  evidence : ∀ ref ∈ episode.evidenceRefs, ref ∈ input.inputRefs
  reproduced : ∃ attempt ∈ o.attempts, attempt.outcome = .reproduced ∧
    attempt.attemptId ∈ episode.firstAttemptId :: episode.confirmedAttemptIds
  known : ∀ id ∈ episode.firstAttemptId :: episode.confirmedAttemptIds,
    ∃ attempt ∈ o.attempts, attempt.attemptId = id

structure Concluded (m : Told) (o : InvestigationOutcome) : Prop where
  attempts : o.attempts.map (·.toReproductionAttemptDraft) = firstOfEach m.attempts
  bounded : m.attempts.length ≤ config.maxPlanRevisions
  verdict : (o.status = .confirmed ∧ ∃ episode, ConfirmedBy input o episode) ∨
    (o.status = .needs_human ∧ o.bugEpisode = none ∧ o.handoff.isSome)

/-- A port threw, the model proposed something malformed or the runner reported an amount that is
refused. -/
def Fails (m : Told) (error : CoordinatorError) : Prop :=
  m.threw ∨ (∃ malformed, error = .plan malformed) ∨
    ∃ dimension, error = .investigation (.invalidAmount dimension) ∧
      ∃ draft ∈ m.attempts, ¬ ValidConsumption draft.budgetConsumed

def Concludes (m : Told) : Except CoordinatorError InvestigationOutcome → Prop
  | .ok o => Concluded config input m o
  | .error error => Fails m error

/-! ## Invariant -/

/-- The keys of the revisions and attempts so far. -/
def Used (n : ℕ) (drafts : List ReproductionAttemptDraft) (key : String) : Prop :=
  key = startKey input.caseId ∨ (∃ r < n, key = planKey input.caseId r) ∨
    ∃ draft ∈ drafts, key = attemptKey input.caseId draft.attemptId

/-- A case after `n` plans and the attempts of the runner. -/
structure Holds (n : ℕ) (drafts : List ReproductionAttemptDraft) (c : InvestigationCase) :
    Prop where
  caseId : c.caseId = input.caseId
  budget : c.budget = input.budget
  storable : c.Storable
  keys : ∀ t ∈ c.transitions, Used input n drafts t.idempotencyKey
  attemptKeys : ∀ attempt ∈ c.attempts, ∃ t ∈ c.transitions,
    t.idempotencyKey = attemptKey input.caseId attempt.attemptId
  attempts : c.attempts.map (·.toReproductionAttemptDraft) = firstOfEach drafts

/-- An investigation that goes on. -/
structure Going (n : ℕ) (drafts : List ReproductionAttemptDraft) (s : CoordinatorState) : Prop where
  holds : Holds input n drafts s.investigation
  status : s.investigation.status = .investigating ∨ s.investigation.status = .reproducing
  ledger : ∀ entry ∈ s.ledger, ∃ r < n, entry.1 = planKey input.caseId r

variable {config input} {n : ℕ} {drafts : List ReproductionAttemptDraft} {c c' : InvestigationCase}
  {t : InvestigationTransition} {command : InvestigationCommand} {m : Told} {s : CoordinatorState}

theorem Used.mono {n' : ℕ} {drafts' : List ReproductionAttemptDraft} {key : String}
    (h : Used input n drafts key) (hn : n ≤ n') (hd : ∀ draft ∈ drafts, draft ∈ drafts') :
    Used input n' drafts' key := by
  rcases h with h | ⟨r, hr, h⟩ | ⟨draft, hdraft, h⟩
  · exact .inl h
  · exact .inr (.inl ⟨r, hr.trans_le hn, h⟩)
  · exact .inr (.inr ⟨draft, hd draft hdraft, h⟩)

theorem not_used_plan : ¬ Used input n drafts (planKey input.caseId n) := by
  rintro (h | ⟨r, hr, h⟩ | ⟨draft, -, h⟩)
  · exact startKey_ne (by decide) (by decide) h.symm
  · exact absurd (planKey_injective h) hr.ne'
  · exact key_ne _ _ _ (by decide) (by decide) (by decide) h

/-- The keys of analyses and escalations are not used by what goes on. -/
theorem not_used_other {tag x : String} (hlength : 3 ≤ tag.toList.length)
    (h : tag.toList.take 3 ∉ [":start".toList.take 3, ":plan:".toList.take 3,
      ":attempt:".toList.take 3]) : ¬ Used input n drafts (input.caseId ++ tag ++ x) := by
  simp only [List.mem_cons, List.not_mem_nil, or_false, not_or] at h
  rintro (he | ⟨r, -, he⟩ | ⟨draft, -, he⟩)
  · exact startKey_ne (Ne.symm h.1) hlength he.symm
  · exact key_ne _ _ _ h.2.1 hlength (by decide) he
  · exact key_ne _ _ _ h.2.2 hlength (by decide) he

theorem Holds.replay_of_not_used (h : Holds input n drafts c) (version : ℕ) {key : String}
    (hkey : ¬ Used input n drafts key) : c.replay ⟨version, key⟩ = none := by
  rw [replay, List.find?_eq_none]
  intro t ht
  rw [decide_eq_true_iff]
  intro he
  have hused := h.keys t ht
  rw [he] at hused
  exact hkey hused

/-- A command other than an attempt is taken. -/
theorem Holds.committed {n' : ℕ} (h : Holds input n drafts c) (ht : c.Commits command t c')
    (hattempts : c'.attempts = c.attempts) (hn : n ≤ n')
    (hkey : Used input n' drafts command.base.idempotencyKey) : Holds input n' drafts c' where
  caseId := ht.caseId.trans h.caseId
  budget := ht.budget.trans h.budget
  storable := (h.storable.committed ht).1
  keys t' ht' := by
    rw [ht.transitions] at ht'
    rcases List.mem_append.mp ht' with hmem | hmem
    · exact (h.keys t' hmem).mono hn fun _ hd => hd
    · rw [List.mem_singleton.mp hmem, ht.key]
      exact hkey
  attemptKeys attempt hmem := by
    rw [hattempts] at hmem
    obtain ⟨t', ht', hk⟩ := h.attemptKeys attempt hmem
    exact ⟨t', ht.transitions ▸ List.mem_append_left _ ht', hk⟩
  attempts := by rw [hattempts]; exact h.attempts

theorem Holds.ids (h : Holds input n drafts c) (id : String) :
    (firstOfEach drafts).any (fun other => other.attemptId = id) ↔
      ∃ attempt ∈ c.attempts, attempt.attemptId = id := by
  rw [← h.attempts, List.any_eq_true]
  constructor
  · rintro ⟨draft, hdraft, he⟩
    obtain ⟨attempt, hattempt, rfl⟩ := List.mem_map.mp hdraft
    exact ⟨attempt, hattempt, of_decide_eq_true he⟩
  · rintro ⟨attempt, hattempt, he⟩
    exact ⟨_, List.mem_map_of_mem hattempt, decide_eq_true he⟩

/-- An attempt under a new id is appended. -/
theorem Holds.appended {draft : ReproductionAttemptDraft} {version : ℕ} (h : Holds input n drafts c)
    (ht : c.Commits (.appendAttempt ⟨version, attemptKey input.caseId draft.attemptId⟩ draft) t c')
    (hattempts : c'.attempts = c.attempts ++ [c.stamp draft]) :
    Holds input n (drafts ++ [draft]) c' where
  caseId := ht.caseId.trans h.caseId
  budget := ht.budget.trans h.budget
  storable := (h.storable.committed ht).1
  keys t' ht' := by
    rw [ht.transitions] at ht'
    rcases List.mem_append.mp ht' with hmem | hmem
    · exact (h.keys t' hmem).mono le_rfl fun _ hd => List.mem_append_left _ hd
    · rw [List.mem_singleton.mp hmem, ht.key]
      exact .inr (.inr ⟨draft, List.mem_append_right _ List.mem_cons_self, rfl⟩)
  attemptKeys attempt hmem := by
    rw [hattempts] at hmem
    rw [ht.transitions]
    rcases List.mem_append.mp hmem with hmem | hmem
    · obtain ⟨t', ht', hk⟩ := h.attemptKeys attempt hmem
      exact ⟨t', List.mem_append_left _ ht', hk⟩
    · rw [List.mem_singleton.mp hmem]
      exact ⟨t, List.mem_append_right _ List.mem_cons_self, ht.key⟩
  attempts := by
    have hfresh : ¬ (firstOfEach drafts).any fun other => other.attemptId = draft.attemptId := by
      rw [h.ids]
      rintro ⟨attempt, hmem, he⟩
      obtain ⟨t', ht', hk⟩ := h.attemptKeys attempt hmem
      refine List.find?_eq_none.mp ht.fresh t' ht' (decide_eq_true ?_)
      rw [hk, he]
      rfl
    rw [hattempts, List.map_append, h.attempts, firstOfEach_snoc, keepFirst, if_neg hfresh]
    rfl

/-- An attempt under an id that was used is not. -/
theorem Holds.repeated {draft : ReproductionAttemptDraft} {version : ℕ}
    (h : Holds input n drafts c)
    (ht : c.replay ⟨version, attemptKey input.caseId draft.attemptId⟩ = some t) :
    Holds input n (drafts ++ [draft]) c := by
  have hkey : t.idempotencyKey = attemptKey input.caseId draft.attemptId := by
    simpa using List.find?_some ht
  have hused : (firstOfEach drafts).any fun other => other.attemptId = draft.attemptId := by
    rcases hkey ▸ h.keys t (List.mem_of_find?_eq_some ht) with he | ⟨r, -, he⟩ | ⟨other, hmem, he⟩
    · exact absurd he.symm (startKey_ne (by decide) (by decide))
    · exact absurd he (key_ne _ _ _ (by decide) (by decide) (by decide))
    · obtain ⟨kept, hkept, hid⟩ := exists_of_mem_drafts hmem
      exact List.any_eq_true.mpr ⟨kept, hkept,
        decide_eq_true (hid.trans (attemptKey_injective he).symm)⟩
  refine ⟨h.caseId, h.budget, h.storable, ?_, h.attemptKeys, ?_⟩
  · exact fun t' ht' => (h.keys t' ht').mono le_rfl fun _ hd => List.mem_append_left _ hd
  · rw [firstOfEach_snoc, keepFirst, if_pos hused]
    exact h.attempts

/-! ## Rounds -/

/-- A case that is handed over in progress has a handoff and no bug episode. -/
theorem Holds.handedOver (h : Holds input n drafts c)
    (hs : c.status = .investigating ∨ c.status = .reproducing) (ht : c.Commits command t c')
    (hto : t.toStatus = .needs_human) :
    c'.status = .needs_human ∧ c'.bugEpisode = none ∧ c'.handoff.isSome := by
  refine ⟨ht.status.trans hto, ?_, ?_⟩
  · rcases ht.bugEpisode with ⟨hconfirmed, -⟩ | ⟨-, hsame⟩
    · rw [hto] at hconfirmed
      cases hconfirmed
    · exact hsame.trans (h.storable.none_of_status hs).1
  · rcases ht.handoff with ⟨-, handoff, hsome, -⟩ | ⟨hne, -⟩
    · rw [hsome, Option.isSome_some]
    · exact absurd hto hne

/-- An escalation ends the investigation. -/
theorem concludes_escalate (hg : Going input n m.attempts s)
    (hbounded : m.attempts.length ≤ config.maxPlanRevisions) (reason : String) :
    Watched Told.next (Allowed config input) (Concludes config input) m (s.escalate reason) := by
  have hnew : ¬ Used input n m.attempts
      (s.investigation.caseId ++ ":escalate:" ++ reason) := by
    rw [hg.holds.caseId]
    exact not_used_other (by decide) (by decide)
  have hfresh := hg.holds.replay_of_not_used s.investigation.version hnew
  obtain ⟨t, c', happly, hattempts, hto⟩ := escalateToHuman_taken
    (CoordinatorState.escalationHandoff reason) hfresh hg.status
  have hcommits := commits_of_ok hfresh happly
  unfold CoordinatorState.escalate
  dsimp only
  rw [if_pos hg.status, happly]
  refine ⟨?_, hbounded, .inr (hg.holds.handedOver hg.status hcommits hto)⟩
  change c'.attempts.map _ = _
  rw [hattempts]
  exact hg.holds.attempts

/-- A plan for the runner came through the gate. -/
def Accepted (input : InvestigateInput) (m : Told) (plan : ReproductionPlan) : Prop :=
  ∃ job result, m.planning = some (job, result) ∧ Passes job result ∧
    reproductionPlanFromResult input.caseId plan.planRevision result = .ok plan

/-- A case whose plan was revised is reproduced, or it was handed over. -/
structure Revised (input : InvestigateInput) (n : ℕ) (m : Told) (s : CoordinatorState) : Prop where
  holds : Holds input (n + 1) m.attempts s.investigation
  ledger : ∀ entry ∈ s.ledger, ∃ r < n + 1, entry.1 = planKey input.caseId r
  status : (s.investigation.status = .reproducing ∧
      ∃ plan, s.snapshot s.investigation.planRevision = some plan ∧ Accepted input m plan) ∨
    (s.investigation.status = .needs_human ∧ s.investigation.bugEpisode = none ∧
      s.investigation.handoff.isSome)

theorem revision_of_plan {caseId : String} {planRevision : ℕ} {result : IntelligenceResult}
    {plan : ReproductionPlan}
    (h : reproductionPlanFromResult caseId planRevision result = .ok plan) :
    plan.planRevision = planRevision := by
  unfold reproductionPlanFromResult at h
  split at h
  · cases h
  split at h
  · obtain ⟨steps, -, h⟩ := bind_eq_ok.mp h
    cases h
    rfl
  · cases h

theorem snapshot_cons (c : InvestigationCase) (revision : ℕ) (plan : ReproductionPlan)
    (plans : List (ℕ × ReproductionPlan)) :
    PlannedCase.snapshot ⟨c, (revision, plan) :: plans⟩ revision = some plan := by
  simp [PlannedCase.snapshot]

/-- The plan of a revision under a new key is taken, or the proposal is malformed. -/
theorem executePlanning_spec (hg : Going input n drafts s) {result : IntelligenceResult}
    (hkey : result.idempotencyKey = planKey input.caseId n) :
    (∃ error s', executePlanning result s.toPlannedCase = (.error (.plan error), s')) ∨
    ∃ effect s' plan, executePlanning result s.toPlannedCase = (.ok effect, s') ∧
      Holds input (n + 1) drafts s'.investigation ∧
      reproductionPlanFromResult input.caseId plan.planRevision result = .ok plan ∧
      s'.snapshot s'.investigation.planRevision = some plan ∧
      (s'.investigation.status = .reproducing ∨ (s'.investigation.status = .needs_human ∧
        s'.investigation.bugEpisode = none ∧ s'.investigation.handoff.isSome)) := by
  have hfresh : s.investigation.replay ⟨s.investigation.version, result.idempotencyKey⟩ = none := by
    rw [hkey]
    exact hg.holds.replay_of_not_used _ not_used_plan
  obtain ⟨t, c', happly, hattempts, hto⟩ := startReproduction_taken hfresh hg.status
  have hcommits := commits_of_ok hfresh happly
  have hused : Used input (n + 1) drafts result.idempotencyKey :=
    .inr (.inl ⟨n, Nat.lt_succ_self n, hkey⟩)
  have hholds := hg.holds.committed hcommits hattempts n.le_succ hused
  unfold executePlanning
  rw [happly]
  dsimp only
  cases hplan : reproductionPlanFromResult c'.caseId c'.planRevision result with
  | error error => exact .inl ⟨error, _, rfl⟩
  | ok plan =>
    have hrevision := revision_of_plan hplan
    refine .inr ⟨_, _, plan, rfl, hholds, ?_, ?_, ?_⟩
    · rw [← hholds.caseId, hrevision]
      exact hplan
    · rw [hrevision]
      exact snapshot_cons _ _ _ _
    · rcases hto with hto | hto
      · exact .inl (hcommits.status.trans hto)
      · exact .inr (hg.holds.handedOver hg.status hcommits hto)

/-- What planning leads to. -/
def Planning (input : InvestigateInput) (n : ℕ) (drafts : List ReproductionAttemptDraft)
    (m : Told) : Except CoordinatorError (ApplyResult × CoordinatorState) → Prop
  | .ok (.rejected _, s) => m.attempts = drafts ∧ Going input n drafts s
  | .ok (_, s) => m.attempts = drafts ∧ Revised input n m s
  | .error error => Fails m error

theorem find_eq_none_of_going (hg : Going input n drafts s) {key : String}
    (h : ∀ r < n, key ≠ planKey input.caseId r) : s.ledger.find key = none := by
  rw [AppliedResultLedger.find, Option.map_eq_none_iff, List.find?_eq_none]
  intro entry hentry
  obtain ⟨r, hr, he⟩ := hg.ledger entry hentry
  rw [decide_eq_true_iff, he]
  exact (h r hr).symm

theorem planning_applied (hg : Going input n m.attempts s) {job : IntelligenceJob}
    {result : IntelligenceResult} {jobId : String}
    (hjob : job = buildReproductionPlanningJob
      (jobInput config input s jobId (planKey input.caseId n)))
    (hplanning : m.planning = some (job, result)) :
    Watched Told.next (Allowed config input) (Planning input n m.attempts) m
      (s.applied job result) := by
  have happlies := applies_apply applierDeps job result s.toPlannedCase s.ledger
  have hkey : job.idempotencyKey = planKey input.caseId n := by rw [hjob]; rfl
  have htype : job.jobType = .reproductionPlanning := by rw [hjob]; rfl
  unfold CoordinatorState.applied
  generalize Intelligence.apply applierDeps job result s.toPlannedCase s.ledger = answer
    at happlies ⊢
  cases happlies with
  | rejected code => exact ⟨rfl, hg⟩
  | duplicate hresult hfind =>
    rw [hresult, hkey, find_eq_none_of_going hg fun r hr he =>
      absurd (planKey_injective he) hr.ne'] at hfind
    cases hfind
  | recompute hversion =>
    refine absurd ?_ hversion
    change currentVersion s.toPlannedCase job.aggregateRef = some job.baseAggregateVersion
    rw [hjob, currentVersion, if_neg]
    · rfl
    · rintro (h | h)
      · exact h rfl
      · exact h hg.holds.caseId.symm
  | @throws error s' hpasses hexecute =>
    have hresult := executePlanning_spec hg (hpasses.key.trans hkey)
    change execute job result s.toPlannedCase = _ at hexecute
    rw [execute, htype] at hexecute
    rcases hresult with ⟨malformed, s'', hspec⟩ | ⟨effect, s'', plan, hspec, -⟩
    · rw [hspec] at hexecute
      cases hexecute
      exact .inr (.inl ⟨malformed, rfl⟩)
    · rw [hspec] at hexecute
      cases hexecute
  | @applied effect s' hpasses hexecute =>
    have hresult := executePlanning_spec hg (hpasses.key.trans hkey)
    change execute job result s.toPlannedCase = _ at hexecute
    rw [execute, htype] at hexecute
    rcases hresult with ⟨malformed, s'', hspec⟩ |
      ⟨effect', s'', plan, hspec, hholds, hplan, hsnap, hs⟩
    · rw [hspec] at hexecute
      cases hexecute
    · rw [hspec] at hexecute
      cases hexecute
      refine ⟨rfl, hholds, ?_, ?_⟩
      · intro entry hentry
        rcases List.mem_cons.mp hentry with rfl | hentry
        · exact ⟨n, Nat.lt_succ_self n, hkey⟩
        · obtain ⟨r, hr, he⟩ := hg.ledger entry hentry
          exact ⟨r, hr.trans (Nat.lt_succ_self n), he⟩
      · rcases hs with hs | hs
        · exact .inl ⟨hs, plan, hsnap, job, result, hplanning, hpasses, hplan⟩
        · exact .inr hs

theorem fails_of_threw (m : Told) (error : CoordinatorError) :
    Fails { m with threw := true } error := .inl rfl

theorem watched_planned (hg : Going input n m.attempts s) :
    Watched Told.next (Allowed config input) (Planning input n m.attempts) m
      (planned config input s n) := by
  refine watched_step trivial (fun error => fails_of_threw m error) fun jobId => ?_
  refine watched_step trivial (fun error => fails_of_threw m error) fun result => ?_
  exact planning_applied (m := { m with planning := some (_, result) }) hg rfl rfl

/-- What an attempt of the runner leads to. -/
def Attempted (input : InvestigateInput) (n : ℕ) (s : CoordinatorState)
    (drafts : List ReproductionAttemptDraft) (m : Told) :
    Except CoordinatorError (ReproductionAttemptDraft × CoordinatorState) → Prop
  | .ok (draft, s') => m.attempts = drafts ++ [draft] ∧ s'.ledger = s.ledger ∧
    Holds input n m.attempts s'.investigation ∧
    (s'.investigation.status = .reproducing ∨ (s'.investigation.status = .needs_human ∧
      s'.investigation.bugEpisode = none ∧ s'.investigation.handoff.isSome))
  | .error error => Fails m error

theorem watched_reproduced (h : Holds input n m.attempts s.investigation)
    (hs : s.investigation.status = .reproducing)
    (hbounded : m.attempts.length < config.maxPlanRevisions) {plan : ReproductionPlan}
    (hplan : Accepted input m plan) :
    Watched Told.next (Allowed config input) (Attempted input n s m.attempts) m
      (reproduced input s plan) := by
  refine watched_step ⟨hbounded, hplan⟩ (fun error => fails_of_threw m error) fun draft => ?_
  change ReproductionAttemptDraft at draft
  let c := s.investigation
  have hkey : input.caseId ++ ":attempt:" ++ draft.attemptId =
      attemptKey input.caseId draft.attemptId := rfl
  dsimp only
  rw [hkey]
  cases hr : c.replay ⟨c.version, attemptKey input.caseId draft.attemptId⟩ with
  | some t =>
    have happly : c.apply (.appendAttempt
        ⟨c.version, attemptKey input.caseId draft.attemptId⟩ draft) = (.ok t, c) :=
      apply_of_replay hr
    rw [happly]
    exact ⟨rfl, rfl, h.repeated hr, .inl hs⟩
  | none =>
    rcases appendAttempt_taken draft hr hs with
      ⟨t, c', happly, hattempts, hto⟩ | ⟨dimension, c', happly, hinvalid⟩
    · have hcommits := commits_of_ok hr happly
      rw [happly]
      refine ⟨rfl, rfl, h.appended hcommits hattempts, ?_⟩
      rcases hto with hto | hto
      · exact .inl (hcommits.status.trans hto)
      · exact .inr (h.handedOver (.inr hs) hcommits hto)
    · rw [happly]
      exact .inr (.inr ⟨dimension, rfl, draft,
        List.mem_append_right _ List.mem_cons_self, hinvalid⟩)

theorem draft_of_result {result : IntelligenceResult} {fallbackEpisodeId : String}
    {draft : BugEpisodeDraft} (h : bugEpisodeDraftFromResult result fallbackEpisodeId = .ok draft) :
    draft.confidence = result.confidence ∧ draft.evidenceRefs = result.evidenceRefs := by
  unfold bugEpisodeDraftFromResult at h
  split at h
  · cases h
  split at h
  · obtain ⟨steps, -, h⟩ := bind_eq_ok.mp h
    cases h
    exact ⟨rfl, rfl⟩
  · cases h

/-- The outcome of a case that is confirmed or handed over, with the attempts of the runner. -/
def Settled (input : InvestigateInput) (drafts : List ReproductionAttemptDraft)
    (o : InvestigationOutcome) : Prop :=
  o.attempts.map (·.toReproductionAttemptDraft) = firstOfEach drafts ∧
    ((o.status = .confirmed ∧ ∃ episode, ConfirmedBy input o episode) ∨
      (o.status = .needs_human ∧ o.bugEpisode = none ∧ o.handoff.isSome))

/-- The outcome of a case. -/
def outcomeOf (c : InvestigationCase) : InvestigationOutcome :=
  CoordinatorState.outcome ⟨⟨c, []⟩, []⟩

theorem settled_of_confirmed (h : Holds input n drafts c) (hs : c.status = .reproducing)
    {result : IntelligenceResult} {job : IntelligenceJob} (hpasses : Passes job result)
    (hrefs : job.inputRefs = input.inputRefs) {fallbackEpisodeId : String} {draft : BugEpisodeDraft}
    (hdraft : bugEpisodeDraftFromResult result fallbackEpisodeId = .ok draft)
    (ht : c.Commits command t c') (hattempts : c'.attempts = c.attempts)
    (hto : t.toStatus = .confirmed)
    (hepisode : c'.bugEpisode =
      some { draft with caseId := c.caseId, findingId := c.findingId }) :
    Settled input drafts (outcomeOf c') := by
  have hattempts' : c'.attempts.map (·.toReproductionAttemptDraft) = firstOfEach drafts := by
    rw [hattempts]
    exact h.attempts
  have hsame : (outcomeOf c').attempts = c.attempts := hattempts
  obtain ⟨hconfidence, hevidence⟩ := draft_of_result hdraft
  refine ⟨hattempts', .inl ⟨ht.status.trans hto,
    { draft with caseId := c.caseId, findingId := c.findingId }, ?_⟩⟩
  have hbacks : c.Backs { draft with caseId := c.caseId, findingId := c.findingId } := by
    rcases ht.bugEpisode with ⟨-, episode, hsome, hbacks⟩ | ⟨hne, -⟩
    · rw [hepisode] at hsome
      cases hsome
      exact hbacks
    · exact absurd hto hne
  refine ⟨hepisode, ?_, ⟨h.budget ▸ hbacks.confidence, ?_⟩, ?_, ?_, ?_⟩
  · rcases ht.handoff with ⟨hhuman, -⟩ | ⟨-, hnone⟩
    · rw [hto] at hhuman
      cases hhuman
    · exact hnone.trans (h.storable.none_of_status (.inr hs)).2
  · dsimp only
    rw [hconfidence]
    exact hpasses.confidence.2
  · intro ref href
    dsimp only at href
    rw [hevidence] at href
    exact hrefs ▸ hpasses.evidence ref href
  · rw [hsame]
    exact hbacks.reproduced
  · rw [hsame]
    exact hbacks.known

/-- An analysis is malformed, or it settles the case. -/
theorem executeAnalysis_spec (h : Holds input n drafts s.investigation)
    (hs : s.investigation.status = .reproducing) {result : IntelligenceResult}
    {job : IntelligenceJob} (hpasses : Passes job result)
    (hrefs : job.inputRefs = input.inputRefs)
    {revision : ℕ}
    (hkey : result.idempotencyKey = input.caseId ++ ":analysis:" ++ toString revision) :
    (∃ error s', executeAnalysis result s.toPlannedCase = (.error (.plan error), s')) ∨
    ∃ effect s', executeAnalysis result s.toPlannedCase = (.ok effect, s') ∧
      Settled input drafts (outcomeOf s'.investigation) := by
  have hnew : ¬ Used input n drafts result.idempotencyKey := by
    rw [hkey]
    exact not_used_other (by decide) (by decide)
  have hfresh := h.replay_of_not_used s.investigation.version hnew
  unfold executeAnalysis
  dsimp only
  cases hdraft : bugEpisodeDraftFromResult result
      (s.investigation.caseId ++ ":episode:" ++ result.idempotencyKey) with
  | error error => exact .inl ⟨error, _, rfl⟩
  | ok draft =>
    right
    dsimp only
    rcases confirm_taken draft hfresh hs with
      ⟨t, c', happly, hattempts, hto, hepisode⟩ | ⟨error, happly, hrejects⟩
    · have hcommits := commits_of_ok hfresh happly
      rw [happly]
      exact ⟨_, _, rfl,
        settled_of_confirmed h hs hpasses hrefs hdraft hcommits hattempts hto hepisode⟩
    · rw [happly]
      dsimp only
      rw [if_pos hrejects]
      have hnew' : ¬ Used input n drafts (result.idempotencyKey ++ ":escalate") := by
        rw [hkey, String.append_assoc]
        exact not_used_other (by decide) (by decide)
      have hfresh' := h.replay_of_not_used s.investigation.version hnew'
      obtain ⟨t, c', happly', hattempts, hto⟩ :=
        escalateToHuman_taken (rejectedHandoff result) hfresh' (.inr hs)
      rw [happly']
      have hcommits := commits_of_ok hfresh' happly'
      have hattempts' : c'.attempts.map (·.toReproductionAttemptDraft) = firstOfEach drafts := by
        rw [hattempts]
        exact h.attempts
      exact ⟨_, _, rfl, hattempts', .inr (h.handedOver (.inr hs) hcommits hto)⟩

/-- What an analysis leads to. -/
def Analyzed (input : InvestigateInput) (n : ℕ) (drafts : List ReproductionAttemptDraft)
    (m : Told) : Except CoordinatorError CoordinatorState → Prop
  | .ok s => m.attempts = drafts ∧
    ((Going input n drafts s ∧ s.investigation.status = .reproducing) ∨
      Settled input drafts s.outcome)
  | .error error => Fails m error

theorem analysis_applied (hg : Going input n m.attempts s)
    (hs : s.investigation.status = .reproducing) {job : IntelligenceJob}
    {result : IntelligenceResult} {jobId : String} {revision : ℕ}
    (hjob : job = buildBugAnalysisJob (jobInput config input s jobId
      (input.caseId ++ ":analysis:" ++ toString revision))) :
    Watched Told.next (Allowed config input) (Analyzed input n m.attempts) m
      ((s.applied job result).bind fun answer => .pure answer.2) := by
  have happlies := applies_apply applierDeps job result s.toPlannedCase s.ledger
  have hkey : job.idempotencyKey = input.caseId ++ ":analysis:" ++ toString revision := by
    rw [hjob]
    rfl
  have htype : job.jobType = .bugAnalysis := by rw [hjob]; rfl
  have hrefs : job.inputRefs = input.inputRefs := by rw [hjob]; rfl
  unfold CoordinatorState.applied
  generalize Intelligence.apply applierDeps job result s.toPlannedCase s.ledger = answer
    at happlies ⊢
  cases happlies with
  | rejected code => exact ⟨rfl, .inl ⟨hg, hs⟩⟩
  | duplicate hresult hfind =>
    rw [hresult, hkey, find_eq_none_of_going hg fun r _ he =>
      absurd he (key_ne _ _ _ (by decide) (by decide) (by decide))] at hfind
    cases hfind
  | recompute hversion =>
    refine absurd ?_ hversion
    change currentVersion s.toPlannedCase job.aggregateRef = some job.baseAggregateVersion
    rw [hjob, currentVersion, if_neg]
    · rfl
    · rintro (h | h)
      · exact h rfl
      · exact h hg.holds.caseId.symm
  | @throws error s' hpasses hexecute =>
    have hresult := executeAnalysis_spec hg.holds hs hpasses hrefs (hpasses.key.trans hkey)
    change execute job result s.toPlannedCase = _ at hexecute
    rw [execute, htype] at hexecute
    rcases hresult with ⟨malformed, s'', hspec⟩ | ⟨effect, s'', hspec, -⟩
    · rw [hspec] at hexecute
      cases hexecute
      exact .inr (.inl ⟨malformed, rfl⟩)
    · rw [hspec] at hexecute
      cases hexecute
  | @applied effect s' hpasses hexecute =>
    have hresult := executeAnalysis_spec hg.holds hs hpasses hrefs (hpasses.key.trans hkey)
    change execute job result s.toPlannedCase = _ at hexecute
    rw [execute, htype] at hexecute
    rcases hresult with ⟨malformed, s'', hspec⟩ | ⟨effect', s'', hspec, hsettled⟩
    · rw [hspec] at hexecute
      cases hexecute
    · rw [hspec] at hexecute
      cases hexecute
      exact ⟨rfl, .inr hsettled⟩

theorem watched_analyzed (hg : Going input n m.attempts s)
    (hs : s.investigation.status = .reproducing) {draft : ReproductionAttemptDraft}
    (hlast : m.attempts.getLast? = some draft) (hdraft : draft.outcome = .reproduced)
    (revision : ℕ) :
    Watched Told.next (Allowed config input) (Analyzed input n m.attempts) m
      (analyzed config input s revision) := by
  refine watched_step trivial (fun error => fails_of_threw m error) fun jobId => ?_
  refine watched_step ⟨draft, hlast, hdraft⟩ (fun error => fails_of_threw m error) fun result => ?_
  exact analysis_applied (m := m) hg hs rfl

theorem concluded_of_settled {o : InvestigationOutcome} (h : Settled input m.attempts o)
    (hbounded : m.attempts.length ≤ config.maxPlanRevisions) : Concluded config input m o :=
  ⟨h.1, hbounded, h.2⟩

theorem status_of_settled (h : Settled input drafts s.outcome) :
    s.investigation.status = .confirmed ∨ s.investigation.status = .needs_human := by
  rcases h.2 with ⟨hs, -⟩ | ⟨hs, -⟩
  · exact .inl hs
  · exact .inr hs

/-- A revision whose plan was taken, when every further one concludes. -/
theorem watched_attempted {further : CoordinatorState → Coordinator InvestigationOutcome}
    (hrevised : Revised input n m s) (hlength : m.attempts.length = n)
    (hmax : n < config.maxPlanRevisions)
    (hfurther : ∀ m' s', Going input (n + 1) m'.attempts s' → m'.attempts.length = n + 1 →
      Watched Told.next (Allowed config input) (Concludes config input) m' (further s'))
    (revision : ℕ) :
    Watched Told.next (Allowed config input) (Concludes config input) m
      (attempted config input further revision s) := by
  unfold attempted
  rcases hrevised.status with ⟨hs, plan, hsnapshot, haccepted⟩ | ⟨hs, hnone, hsome⟩
  · rw [if_neg (by rw [hs]; decide), hsnapshot]
    refine watched_bind _ (watched_reproduced hrevised.holds hs (hlength ▸ hmax) haccepted) ?_
      fun m' error herror => herror
    rintro m' ⟨draft, s'⟩ ⟨hattempts, hledger, hholds, hstatus⟩
    have hlength' : m'.attempts.length = n + 1 := by
      rw [hattempts, List.length_append, hlength, List.length_singleton]
    dsimp only
    rcases hstatus with hs' | ⟨hs', hnone, hsome⟩
    · have hgoing : Going input (n + 1) m'.attempts s' :=
        ⟨hholds, .inr hs', fun entry hentry => hrevised.ledger entry (hledger ▸ hentry)⟩
      rw [if_neg (by rw [hs']; decide)]
      split
      next hdraft =>
        have hlast : m'.attempts.getLast? = some draft := by
          rw [hattempts, List.getLast?_append_of_ne_nil _ (List.cons_ne_nil _ _)]
          rfl
        refine watched_bind _ (watched_analyzed hgoing hs' hlast hdraft revision) ?_
          fun m'' error herror => herror
        rintro m'' s'' ⟨hsame, hanalyzed⟩
        rw [← hsame] at hlength' hanalyzed
        rcases hanalyzed with ⟨hgoing', hs''⟩ | hsettled
        · rw [if_neg (by rw [hs'']; decide)]
          exact hfurther m'' s'' hgoing' hlength'
        · rw [if_pos (status_of_settled hsettled)]
          exact concluded_of_settled hsettled (by omega)
      · exact hfurther m' s' hgoing hlength'
    · rw [if_pos hs']
      exact ⟨hholds.attempts, by omega, .inr ⟨hs', hnone, hsome⟩⟩
  · rw [if_pos hs]
    exact ⟨hrevised.holds.attempts, by omega, .inr ⟨hs, hnone, hsome⟩⟩

/-- Induction on the revisions that remain. -/
theorem watched_revisions (remaining : ℕ) : ∀ (n : ℕ) (m : Told) (s : CoordinatorState),
    Going input n m.attempts s → m.attempts.length = n →
    n + remaining = config.maxPlanRevisions →
    Watched Told.next (Allowed config input) (Concludes config input) m
      (revisions config input remaining n s) := by
  induction remaining with
  | zero =>
    intro n m s hg hlength hmax
    exact concludes_escalate hg (by omega) _
  | succ remaining ih =>
    intro n m s hg hlength hmax
    refine watched_bind _ (watched_planned hg) ?_ fun m' error herror => herror
    rintro m' ⟨answer, s'⟩ hplanning
    have hrevised (h : m'.attempts = m.attempts ∧ Revised input n m' s') :
        Watched Told.next (Allowed config input) (Concludes config input) m'
          (attempted config input (revisions config input remaining (n + 1)) n s') :=
      watched_attempted h.2 (h.1 ▸ hlength) (by omega)
        (fun m'' s'' hg' hlength' => ih (n + 1) m'' s'' hg' hlength' (by omega)) n
    cases answer with
    | rejected code =>
      obtain ⟨hattempts, hg'⟩ := hplanning
      rw [← hattempts] at hg'
      exact concludes_escalate hg' (by rw [hattempts]; omega) _
    | applied effect => exact hrevised hplanning
    | duplicate effect => exact hrevised hplanning
    | recompute => exact hrevised hplanning

/-- Nothing was answered yet. -/
def Told.nothing : Told := ⟨none, [], false⟩

/-- Whatever the model and the runner answer, the runner reproduces plans only that came through the
gate, one for each revision. An investigation that ends has the attempts of the runner and is
confirmed, backed by them, or handed over; it fails only when a port does, when the model proposes
something malformed or when the runner reports an amount that is refused. -/
theorem investigate_concludes (config : InvestigationCoordinatorConfig) (input : InvestigateInput) :
    Watched Told.next (Allowed config input) (Concludes config input) .nothing
      (investigate config input) := by
  let c := opened input.caseId input.findingId input.projectId input.budget
  have hopened : c.apply (.startInvestigation ⟨c.version, input.caseId ++ ":start"⟩) =
      (.ok ⟨{}, c.caseId, .candidate, .investigating, 2, input.caseId ++ ":start", 0, .zero⟩,
        { c with version := 2, status := .investigating, transitions :=
          [⟨{}, c.caseId, .candidate, .investigating, 2, input.caseId ++ ":start", 0, .zero⟩] }) :=
    rfl
  unfold investigate
  dsimp only
  rw [hopened]
  have hstorable := storable_opened input.caseId input.findingId input.projectId input.budget
  refine watched_revisions config.maxPlanRevisions 0 .nothing _ ⟨?_, .inl rfl, ?_⟩ rfl
    (Nat.zero_add _)
  · refine ⟨rfl, rfl, ?_, ?_, ?_, rfl⟩
    · exact ⟨rfl, hstorable.own, hstorable.handoff, hstorable.episode, nofun⟩
    · intro t ht
      rw [List.mem_singleton.mp ht]
      exact .inl rfl
    · exact fun _ hmem => absurd hmem List.not_mem_nil
  · exact fun _ hmem => absurd hmem List.not_mem_nil

end Safety

end Qualigence.Investigation
