import Qualigence.Foundation.History
import Qualigence.Investigation.Overrun

/-! # The history of a case

A case is opened as a candidate and every transition leads from the status that the one before led
to. The statuses only move forward, so that a case gets one verdict. A confirmed case names an
attempt that reproduced the finding, and a command whose key was used is answered as it was.
-/

namespace Qualigence.Investigation

namespace InvestigationStatus

/-- The transitions that commands can commit. -/
inductive Leads : InvestigationStatus → InvestigationStatus → Prop
  | start : Leads candidate investigating
  | plan : Leads investigating reproducing
  | revise : Leads reproducing reproducing
  | confirm : Leads reproducing confirmed
  | refute : Leads reproducing refuted
  | flaky : Leads reproducing flaky
  | hand_over_plan : Leads investigating needs_human
  | hand_over : Leads reproducing needs_human
  | resolve_confirmed : Leads confirmed resolved
  | resolve_refuted : Leads refuted resolved
  | resolve_flaky : Leads flaky resolved
  | resolve_handed_over : Leads needs_human resolved
  | verify : Leads resolved regression_verified

/-- How far a case has come. -/
def rank : InvestigationStatus → ℕ
  | candidate => 0
  | investigating => 1
  | reproducing => 2
  | confirmed | refuted | flaky | needs_human => 3
  | resolved => 4
  | regression_verified => 5

/-- Statuses that end an investigation. -/
def IsVerdict (status : InvestigationStatus) : Prop := status.rank = 3

instance (status : InvestigationStatus) : Decidable status.IsVerdict :=
  inferInstanceAs (Decidable (_ = _))

theorem Leads.rank_lt {s s' : InvestigationStatus} (h : Leads s s') (hs : s ≠ reproducing) :
    s.rank < s'.rank := by
  cases h <;> first | decide | exact absurd rfl hs

theorem Leads.rank_le {s s' : InvestigationStatus} (h : Leads s s') : s.rank ≤ s'.rank := by
  cases h <;> decide

end InvestigationStatus

open InvestigationStatus

/-! ## Paths -/

/-- Transitions that lead from one status to another, numbered from a version. -/
inductive Path : ℕ → InvestigationStatus → List InvestigationTransition → InvestigationStatus → Prop
  | nil (version : ℕ) (s : InvestigationStatus) : Path version s [] s
  | cons {version : ℕ} {s s' : InvestigationStatus} {t : InvestigationTransition}
      {ts : List InvestigationTransition} : t.fromStatus = s → t.version = version + 1 →
      Leads s t.toStatus → Path (version + 1) t.toStatus ts s' → Path version s (t :: ts) s'

theorem Path.snoc {version : ℕ} {s s' : InvestigationStatus} {ts : List InvestigationTransition}
    (h : Path version s ts s') {t : InvestigationTransition} (hfrom : t.fromStatus = s')
    (hversion : t.version = version + ts.length + 1) (hleads : Leads s' t.toStatus) :
    Path version s (ts ++ [t]) t.toStatus := by
  induction h with
  | nil version s => exact .cons hfrom hversion hleads (.nil _ _)
  | @cons version s s' t' ts h₁ h₂ h₃ _ ih =>
    refine .cons h₁ h₂ h₃ (ih hfrom ?_ hleads)
    rw [hversion, List.length_cons]
    omega

theorem Path.rank_le {version : ℕ} {s s' : InvestigationStatus} {ts : List InvestigationTransition}
    (h : Path version s ts s') : s.rank ≤ s'.rank := by
  induction h with
  | nil version s => exact Nat.le_refl _
  | cons _ _ hleads _ ih => exact hleads.rank_le.trans ih

/-- Behind a verdict there is no other. -/
theorem Path.no_verdict {version : ℕ} {s s' : InvestigationStatus}
    {ts : List InvestigationTransition} (h : Path version s ts s') (hs : 3 ≤ s.rank) :
    ∀ t ∈ ts, ¬ t.toStatus.IsVerdict := by
  induction h with
  | nil version s => exact fun t ht => absurd ht List.not_mem_nil
  | @cons version s s' t ts _ _ hleads _ ih =>
    have hlt : s.rank < t.toStatus.rank := by
      refine hleads.rank_lt ?_
      rintro rfl
      exact absurd hs (by decide)
    intro t' ht'
    rcases List.mem_cons.mp ht' with rfl | ht'
    · rw [IsVerdict]
      omega
    · exact ih (by omega) t' ht'

/-- A case gets one verdict at most. -/
theorem Path.verdicts_le {version : ℕ} {s s' : InvestigationStatus}
    {ts : List InvestigationTransition} (h : Path version s ts s') :
    (ts.filter fun t => t.toStatus.IsVerdict).length ≤ 1 := by
  induction h with
  | nil version s => exact Nat.zero_le _
  | @cons version s s' t ts _ _ hleads hrest ih =>
    by_cases hv : t.toStatus.IsVerdict
    · have hnone : ts.filter (fun t => t.toStatus.IsVerdict) = [] := by
        rw [List.filter_eq_nil_iff]
        intro t' ht'
        simpa using hrest.no_verdict (Nat.le_of_eq hv.symm) t' ht'
      rw [List.filter_cons_of_pos (by simpa using hv), hnone]
      exact Nat.le_refl _
    · rw [List.filter_cons_of_neg (by simpa using hv)]
      exact ih

namespace InvestigationCase

variable {c c' : InvestigationCase} {command : InvestigationCommand}

/-! ## What a command does -/

/-- The confirmed attempts of an episode belong to the case, one of them reproduced the finding, and
the confidence reaches the threshold. -/
structure Backs (c : InvestigationCase) (e : BugEpisode) : Prop where
  own : e.caseId = c.caseId ∧ e.findingId = c.findingId
  confidence : c.budget.confirmationConfidenceThreshold ≤ e.confidence
  reproduced : ∃ attempt ∈ c.attempts, attempt.outcome = .reproduced ∧
    attempt.attemptId ∈ e.firstAttemptId :: e.confirmedAttemptIds
  known : ∀ id ∈ e.firstAttemptId :: e.confirmedAttemptIds,
    ∃ attempt ∈ c.attempts, attempt.attemptId = id

/-- The case itself, its limits and the attempts that it had. -/
structure Grows (c c' : InvestigationCase) : Prop where
  caseId : c'.caseId = c.caseId
  findingId : c'.findingId = c.findingId
  projectId : c'.projectId = c.projectId
  budget : c'.budget = c.budget
  attempts : c'.attempts = c.attempts ∨ ∃ draft, c'.attempts = c.attempts ++ [c.stamp draft]

/-- A command that is refused leaves at most the attempt it reported. -/
structure Refuses (c c' : InvestigationCase) : Prop extends Grows c c' where
  version : c'.version = c.version
  status : c'.status = c.status
  transitions : c'.transitions = c.transitions
  bugEpisode : c'.bugEpisode = c.bugEpisode
  handoff : c'.handoff = c.handoff

/-- A command that is taken commits one transition under its key. -/
structure Commits (c : InvestigationCase) (command : InvestigationCommand)
    (t : InvestigationTransition) (c' : InvestigationCase) : Prop extends Grows c c' where
  fresh : c.replay command.base = none
  key : t.idempotencyKey = command.base.idempotencyKey
  fromStatus : t.fromStatus = c.status
  leads : Leads c.status t.toStatus
  number : t.version = c.version + 1
  version : c'.version = t.version
  status : c'.status = t.toStatus
  transitions : c'.transitions = c.transitions ++ [t]
  bugEpisode : t.toStatus = .confirmed ∧ (∃ e, c'.bugEpisode = some e ∧ c.Backs e) ∨
    t.toStatus ≠ .confirmed ∧ c'.bugEpisode = c.bugEpisode
  handoff : t.toStatus = .needs_human ∧ (∃ h, c'.handoff = some h ∧ h.caseId = c.caseId) ∨
    t.toStatus ≠ .needs_human ∧ c'.handoff = c.handoff

/-- A command is answered as before, refused or taken. -/
inductive Does (c : InvestigationCase) (command : InvestigationCommand) : Outcome → Prop
  | answers {t : InvestigationTransition} : c.replay command.base = some t →
      Does c command (.ok t, c)
  | refuses (error : InvestigationError) {c' : InvestigationCase} :
      c.replay command.base = none → c.Refuses c' → Does c command (.error error, c')
  | commits {t : InvestigationTransition} {c' : InvestigationCase} : c.Commits command t c' →
      Does c command (.ok t, c')

theorem Grows.refl (c : InvestigationCase) : c.Grows c := ⟨rfl, rfl, rfl, rfl, .inl rfl⟩

theorem Refuses.refl (c : InvestigationCase) : c.Refuses c :=
  ⟨.refl c, rfl, rfl, rfl, rfl, rfl⟩

theorem grows_appended (c : InvestigationCase) (draft : ReproductionAttemptDraft) :
    c.Grows (c.appended draft) := ⟨rfl, rfl, rfl, rfl, .inr ⟨draft, rfl⟩⟩

/-- What stands in front of the body of a command. -/
theorem does_transact {legal : List InvestigationStatus} {toStatus : InvestigationStatus}
    {body : Outcome}
    (h : c.replay command.base = none → c.status ∈ legal → c.Does command body) :
    c.Does command (c.transact command.base legal toStatus body) := by
  unfold transact
  cases hr : c.replay command.base with
  | some t => exact .answers hr
  | none =>
    dsimp only
    split
    · exact .refuses _ hr (.refl c)
    · next hlegal =>
      split
      · exact .refuses _ hr (.refl c)
      · exact h hr (not_not.mp hlegal)

/-- The body of a command that only commits. -/
theorem does_commit {c₁ : InvestigationCase} {toStatus : InvestigationStatus}
    {extras : TransitionExtras} (hr : c.replay command.base = none) (hg : c.Grows c₁)
    (hv : c₁.version = c.version) (hs : c₁.status = c.status)
    (ht : c₁.transitions = c.transitions) (hleads : Leads c.status toStatus)
    (he : toStatus = .confirmed ∧ (∃ e, c₁.bugEpisode = some e ∧ c.Backs e) ∨
      toStatus ≠ .confirmed ∧ c₁.bugEpisode = c.bugEpisode)
    (hh : toStatus = .needs_human ∧ (∃ h, c₁.handoff = some h ∧ h.caseId = c.caseId) ∨
      toStatus ≠ .needs_human ∧ c₁.handoff = c.handoff) :
    c.Does command (c₁.commit command.base toStatus extras) := by
  refine .commits ⟨⟨hg.caseId, hg.findingId, hg.projectId, hg.budget, hg.attempts⟩, hr, rfl, hs,
    hleads, ?_, rfl, rfl, ?_, he, hh⟩
  · exact congrArg (· + 1) hv
  · exact congrArg (· ++ _) ht

theorem leads_of_mem {c : InvestigationCase} {s : InvestigationStatus}
    (hs : c.status ∈ [s]) {toStatus : InvestigationStatus} (h : Leads s toStatus) :
    Leads c.status toStatus := by
  rw [List.mem_singleton.mp hs]
  exact h

theorem does_simpleTransition {required toStatus : InvestigationStatus}
    (h : Leads required toStatus) (he : toStatus ≠ .confirmed) (hh : toStatus ≠ .needs_human) :
    c.Does command (c.simpleTransition command.base required toStatus) :=
  does_transact fun hr hs => does_commit hr (.refl c) rfl rfl rfl (leads_of_mem hs h)
    (.inr ⟨he, rfl⟩) (.inr ⟨hh, rfl⟩)

theorem does_confirm {base : InvestigationCommandBase} {draft : BugEpisodeDraft} :
    c.Does (.confirm base draft) (c.confirm base draft) := by
  refine does_transact  fun hr hs => ?_
  dsimp only
  split
  · exact .refuses _ hr (.refl c)
  next hconfidence =>
  split
  · exact .refuses _ hr (.refl c)
  next hreproduced =>
  split
  · exact .refuses _ hr (.refl c)
  next hknown =>
  simp only [Bool.not_eq_true', Bool.not_eq_false, List.any_eq_true, List.mem_filter,
    decide_eq_true_eq] at hreproduced
  obtain ⟨id, hid, attempt, ⟨hmem, houtcome⟩, hattempt⟩ := hreproduced
  have hbacks : c.Backs { draft with caseId := c.caseId, findingId := c.findingId } := by
    refine ⟨⟨rfl, rfl⟩, not_lt.mp hconfidence, ⟨attempt, hmem, houtcome, hattempt ▸ hid⟩, ?_⟩
    intro id' hid'
    by_contra hunknown
    refine List.find?_eq_none.mp hknown id' hid' ?_
    rw [List.all_eq_true]
    intro other hother
    rw [decide_eq_true_eq]
    exact fun he => hunknown ⟨other, hother, he⟩
  exact does_commit hr ⟨rfl, rfl, rfl, rfl, .inl rfl⟩ rfl rfl rfl (leads_of_mem hs .confirm)
    (.inl ⟨rfl, _, rfl, hbacks⟩) (.inr ⟨by decide, rfl⟩)

/-- A case that is handed over after its budget is exhausted. -/
theorem does_commitNeedsHuman {c₁ : InvestigationCase} {dimensions : List BudgetDimension}
    {attempt : Option ReproductionAttempt} (hr : c.replay command.base = none) (hg : c.Grows c₁)
    (hv : c₁.version = c.version) (hs : c₁.status = c.status)
    (ht : c₁.transitions = c.transitions) (he : c₁.bugEpisode = c.bugEpisode)
    (hleads : Leads c.status .needs_human) :
    c.Does command (c₁.commitNeedsHuman command.base dimensions attempt) :=
  does_commit hr ⟨hg.caseId, hg.findingId, hg.projectId, hg.budget, hg.attempts⟩ hv hs ht hleads
    (.inr ⟨by decide, he⟩) (.inl ⟨rfl, _, rfl, hg.caseId⟩)

theorem does_startReproduction {base : InvestigationCommandBase} :
    c.Does (.startReproduction base) (c.startReproduction base) := by
  refine does_transact  fun hr hs => ?_
  have hg : c.Grows c.revised := ⟨rfl, rfl, rfl, rfl, .inl rfl⟩
  have hstatus : c.status = .investigating ∨ c.status = .reproducing := by simpa using hs
  split
  · refine does_commitNeedsHuman hr hg rfl rfl rfl rfl ?_
    rcases hstatus with h | h <;> rw [h]
    · exact .hand_over_plan
    · exact .hand_over
  · refine does_commit hr hg rfl rfl rfl ?_ (.inr ⟨by decide, rfl⟩) (.inr ⟨by decide, rfl⟩)
    rcases hstatus with h | h <;> rw [h]
    · exact .plan
    · exact .revise

theorem does_appendAttempt {base : InvestigationCommandBase} {draft : ReproductionAttemptDraft} :
    c.Does (.appendAttempt base draft) (c.appendAttempt base draft) := by
  refine does_transact  fun hr hs => ?_
  dsimp only
  split
  · exact .refuses _ hr ⟨grows_appended c draft, rfl, rfl, rfl, rfl, rfl⟩
  · split
    · exact does_commitNeedsHuman hr (grows_appended c draft) rfl rfl rfl rfl
        (leads_of_mem hs .hand_over)
    · exact does_commit hr (grows_appended c draft) rfl rfl rfl (leads_of_mem hs .revise)
        (.inr ⟨by decide, rfl⟩) (.inr ⟨by decide, rfl⟩)

theorem does_escalateToHuman {base : InvestigationCommandBase} {draft : HumanHandoffDraft} :
    c.Does (.escalateToHuman base draft) (c.escalateToHuman base draft) := by
  refine does_transact  fun hr hs => ?_
  refine does_commit hr ⟨rfl, rfl, rfl, rfl, .inl rfl⟩ rfl rfl rfl ?_ (.inr ⟨by decide, rfl⟩)
    (.inl ⟨rfl, _, rfl, rfl⟩)
  have hstatus : c.status = .investigating ∨ c.status = .reproducing := by simpa using hs
  rcases hstatus with h | h <;> rw [h]
  · exact .hand_over_plan
  · exact .hand_over

theorem does_resolve {base : InvestigationCommandBase} {disposition : String} :
    c.Does (.resolve base disposition) (c.resolve base) := by
  refine does_transact  fun hr hs => ?_
  refine does_commit hr (.refl c) rfl rfl rfl ?_ (.inr ⟨by decide, rfl⟩) (.inr ⟨by decide, rfl⟩)
  have hstatus : c.status = .confirmed ∨ c.status = .refuted ∨ c.status = .flaky ∨
      c.status = .needs_human := by simpa using hs
  rcases hstatus with h | h | h | h <;> rw [h]
  · exact .resolve_confirmed
  · exact .resolve_refuted
  · exact .resolve_flaky
  · exact .resolve_handed_over

/-- What each command does to a case. -/
theorem does_apply (c : InvestigationCase) (command : InvestigationCommand) :
    c.Does command (c.apply command) := by
  cases command with
  | startInvestigation base => exact does_simpleTransition .start (by decide) (by decide)
  | startReproduction base => exact does_startReproduction
  | appendAttempt base draft => exact does_appendAttempt
  | confirm base draft => exact does_confirm
  | refute base reason => exact does_simpleTransition .refute (by decide) (by decide)
  | markFlaky base reason => exact does_simpleTransition .flaky (by decide) (by decide)
  | escalateToHuman base draft => exact does_escalateToHuman
  | resolve base disposition => exact does_resolve
  | verifyRegression base => exact does_simpleTransition .verify (by decide) (by decide)

/-! ## The history -/

/-- What the transitions of a case say about it. -/
structure Recorded (c : InvestigationCase) : Prop where
  path : Path 1 .candidate c.transitions c.status
  version : c.version = c.transitions.length + 1
  keys : (c.transitions.map (·.idempotencyKey)).Nodup
  attempts : ∀ place attempt, c.attempts[place]? = some attempt →
    attempt.ordinal = place + 1 ∧ attempt.caseId = c.caseId
  backed : ∀ e ∈ c.bugEpisode, c.Backs e
  confirmed : c.bugEpisode.isSome ↔ ∃ t ∈ c.transitions, t.toStatus = .confirmed
  handedOver : c.handoff.isSome ↔ ∃ t ∈ c.transitions, t.toStatus = .needs_human

theorem recorded_opened (caseId findingId projectId : String) (budget : InvestigationBudget) :
    (opened caseId findingId projectId budget).Recorded where
  path := .nil 1 .candidate
  version := rfl
  keys := List.nodup_nil
  attempts _ _ h := by cases h
  backed _ h := by cases h
  confirmed := by simp [opened]
  handedOver := by simp [opened]

theorem Grows.mem {attempt : ReproductionAttempt} (h : c.Grows c') (ha : attempt ∈ c.attempts) :
    attempt ∈ c'.attempts := by
  rcases h.attempts with he | ⟨draft, he⟩ <;> rw [he]
  · exact ha
  · exact List.mem_append_left _ ha

theorem Backs.later {e : BugEpisode} (h : c.Backs e) (hg : c.Grows c') : c'.Backs e where
  own := by rw [hg.caseId, hg.findingId]; exact h.own
  confidence := by rw [hg.budget]; exact h.confidence
  reproduced := by
    obtain ⟨attempt, ha, hrest⟩ := h.reproduced
    exact ⟨attempt, hg.mem ha, hrest⟩
  known id hid := by
    obtain ⟨attempt, ha, hrest⟩ := h.known id hid
    exact ⟨attempt, hg.mem ha, hrest⟩

theorem Recorded.attempts_later (h : c.Recorded) (hg : c.Grows c') {place : ℕ}
    {attempt : ReproductionAttempt} (ha : c'.attempts[place]? = some attempt) :
    attempt.ordinal = place + 1 ∧ attempt.caseId = c'.caseId := by
  rw [hg.caseId]
  rcases hg.attempts with he | ⟨draft, he⟩ <;> rw [he] at ha
  · exact h.attempts place attempt ha
  · rw [List.getElem?_append] at ha
    split at ha
    · exact h.attempts place attempt ha
    · next hplace =>
      obtain ⟨hlt, rfl⟩ := List.getElem?_eq_some_iff.mp ha
      rw [List.length_singleton] at hlt
      obtain rfl : place = c.attempts.length := by omega
      simp [stamp]

theorem Refuses.backed (hr : c.Refuses c') (h : ∀ e ∈ c.bugEpisode, c.Backs e) :
    ∀ e ∈ c'.bugEpisode, c'.Backs e := by
  rw [hr.bugEpisode]
  exact fun e he => (h e he).later hr.toGrows

theorem Commits.backed {t : InvestigationTransition} (ht : c.Commits command t c')
    (h : ∀ e ∈ c.bugEpisode, c.Backs e) : ∀ e ∈ c'.bugEpisode, c'.Backs e := by
  rcases ht.bugEpisode with ⟨-, e', he', hb⟩ | ⟨-, hsame⟩
  · rw [he']
    rintro _ ⟨⟩
    exact hb.later ht.toGrows
  · rw [hsame]
    exact fun e he => (h e he).later ht.toGrows

/-- The bug episode of a case stays backed by its attempts. -/
theorem backed_next (h : ∀ e ∈ c.bugEpisode, c.Backs e) :
    ∀ e ∈ (c.next command).bugEpisode, (c.next command).Backs e := by
  have hdoes := does_apply c command
  rw [InvestigationCase.next]
  generalize c.apply command = outcome at hdoes ⊢
  cases hdoes with
  | answers _ => exact h
  | refuses _ _ hr => exact hr.backed h
  | commits ht => exact ht.backed h

theorem Recorded.refused (h : c.Recorded) (hr : c.Refuses c') : c'.Recorded where
  path := by rw [hr.transitions, hr.status]; exact h.path
  version := by rw [hr.transitions, hr.version]; exact h.version
  keys := by rw [hr.transitions]; exact h.keys
  attempts _ _ ha := h.attempts_later hr.toGrows ha
  backed := hr.backed h.backed
  confirmed := by rw [hr.transitions, hr.bugEpisode]; exact h.confirmed
  handedOver := by rw [hr.transitions, hr.handoff]; exact h.handedOver

theorem not_mem_of_replay (hr : c.replay command.base = none) :
    command.base.idempotencyKey ∉ c.transitions.map (·.idempotencyKey) := by
  rw [List.mem_map]
  rintro ⟨t, ht, hk⟩
  exact absurd (decide_eq_true hk) (List.find?_eq_none.mp hr t ht)

theorem Recorded.committed {t : InvestigationTransition} (h : c.Recorded)
    (ht : c.Commits command t c') : c'.Recorded where
  path := by
    rw [ht.transitions, ht.status]
    refine h.path.snoc ht.fromStatus ?_ ht.leads
    rw [ht.number, h.version]
    omega
  version := by
    rw [ht.transitions, ht.version, ht.number, h.version, List.length_append, List.length_singleton]
  keys := by
    rw [ht.transitions, List.map_append, List.map_singleton, List.nodup_append]
    refine ⟨h.keys, List.nodup_singleton _, ?_⟩
    rintro key hkey _ hmem rfl
    rw [List.mem_singleton.mp hmem, ht.key] at hkey
    exact not_mem_of_replay ht.fresh hkey
  attempts _ _ ha := h.attempts_later ht.toGrows ha
  backed := ht.backed h.backed
  confirmed := by
    rw [ht.transitions]
    simp only [List.mem_append, List.mem_singleton, or_and_right, exists_or, exists_eq_left]
    rcases ht.bugEpisode with ⟨hto, e, he, -⟩ | ⟨hto, hsame⟩
    · simp [he, hto]
    · rw [hsame, h.confirmed]
      simp [hto]
  handedOver := by
    rw [ht.transitions]
    simp only [List.mem_append, List.mem_singleton, or_and_right, exists_or, exists_eq_left]
    rcases ht.handoff with ⟨hto, h', hh', -⟩ | ⟨hto, hsame⟩
    · simp [hh', hto]
    · rw [hsame, h.handedOver]
      simp [hto]

theorem Recorded.next (h : c.Recorded) (command : InvestigationCommand) :
    (c.next command).Recorded := by
  have hdoes := does_apply c command
  rw [InvestigationCase.next]
  generalize c.apply command = outcome at hdoes ⊢
  cases hdoes with
  | answers _ => exact h
  | refuses _ _ hr => exact h.refused hr
  | commits ht => exact h.committed ht

theorem Recorded.runs (h : c.Recorded) (commands : List InvestigationCommand) :
    (c.runs commands).Recorded := by
  induction commands generalizing c with
  | nil => exact h
  | cons command commands ih => exact ih (h.next command)

/-- A transition is kept, with the only answer to its key. -/
theorem replay_of_mem (h : c.Recorded) {t : InvestigationTransition} (ht : t ∈ c.transitions)
    {base : InvestigationCommandBase} (hkey : t.idempotencyKey = base.idempotencyKey) :
    c.replay base = some t := by
  unfold replay
  cases hfind : c.transitions.find? fun t => t.idempotencyKey = base.idempotencyKey with
  | none => exact absurd (decide_eq_true hkey) (List.find?_eq_none.mp hfind t ht)
  | some t' =>
    have hkey' : t'.idempotencyKey = base.idempotencyKey := by
      simpa using List.find?_some hfind
    have hsame := List.inj_on_of_nodup_map h.keys (List.mem_of_find?_eq_some hfind) ht
      (hkey'.trans hkey.symm)
    rw [hsame]

theorem apply_of_replay {t : InvestigationTransition} (h : c.replay command.base = some t) :
    c.apply command = (.ok t, c) := by
  have hdoes := does_apply c command
  generalize c.apply command = outcome at hdoes ⊢
  cases hdoes with
  | answers h' =>
    rw [h] at h'
    cases h'
    rfl
  | refuses _ hnone _ => exact absurd (h.symm.trans hnone) (by simp)
  | commits ht => exact absurd (h.symm.trans ht.fresh) (by simp)

theorem transitions_next (c : InvestigationCase) (command : InvestigationCommand) :
    c.transitions <+: (c.next command).transitions := by
  have hdoes := does_apply c command
  rw [InvestigationCase.next]
  generalize c.apply command = outcome at hdoes ⊢
  cases hdoes with
  | answers _ => exact List.prefix_rfl
  | refuses _ _ hr => exact hr.transitions ▸ List.prefix_rfl
  | commits ht => exact ht.transitions ▸ List.prefix_append _ _

theorem transitions_runs (c : InvestigationCase) (commands : List InvestigationCommand) :
    c.transitions <+: (c.runs commands).transitions := by
  induction commands generalizing c with
  | nil => exact List.prefix_rfl
  | cons command commands ih => exact (transitions_next c command).trans (ih (c.next command))

/-- A command that is answered with a transition finds it among those of the case. -/
theorem mem_of_apply {t : InvestigationTransition} (h : (c.apply command).1 = .ok t) :
    t ∈ (c.next command).transitions ∧ t.idempotencyKey = command.base.idempotencyKey := by
  have hdoes := does_apply c command
  rw [InvestigationCase.next]
  generalize c.apply command = outcome at h hdoes ⊢
  cases hdoes with
  | answers hr =>
    cases h
    exact ⟨List.mem_of_find?_eq_some hr, by simpa using List.find?_some hr⟩
  | refuses _ _ _ => cases h
  | commits ht =>
    cases h
    exact ⟨ht.transitions ▸ List.mem_append_right _ List.mem_cons_self, ht.key⟩

theorem runs_append (c : InvestigationCase) (past later : List InvestigationCommand) :
    c.runs (past ++ later) = (c.runs past).runs later := List.foldl_append

/-- Whatever happens after a command was answered with a transition, every command under its key is
answered with it and leaves the case as it is. -/
theorem used_key_is_answered (caseId findingId projectId : String) (budget : InvestigationBudget)
    (past later : List InvestigationCommand) (command again : InvestigationCommand)
    (t : InvestigationTransition)
    (h : (((opened caseId findingId projectId budget).runs past).apply command).1 = .ok t)
    (hkey : again.base.idempotencyKey = command.base.idempotencyKey) :
    ((opened caseId findingId projectId budget).runs (past ++ command :: later)).apply again =
      (.ok t, (opened caseId findingId projectId budget).runs (past ++ command :: later)) := by
  have hrecorded := (recorded_opened caseId findingId projectId budget).runs
    (past ++ command :: later)
  obtain ⟨ht, htkey⟩ := mem_of_apply h
  apply apply_of_replay
  refine replay_of_mem hrecorded ?_ (htkey.trans hkey.symm)
  rw [runs_append]
  exact (transitions_runs _ later).subset ht

/-- A case that was started twice under one key. -/
theorem used_key_is_answered_start :
    ((opened "c" "f" "p" (sampleBudget 2)).runs
        [.startInvestigation ⟨1, "start"⟩, .startReproduction ⟨2, "plan"⟩]).apply
      (.resolve ⟨7, "start"⟩ "again") =
      (.ok ⟨{}, "c", .candidate, .investigating, 2, "start", 0, .zero⟩,
        (opened "c" "f" "p" (sampleBudget 2)).runs
          [.startInvestigation ⟨1, "start"⟩, .startReproduction ⟨2, "plan"⟩]) :=
  used_key_is_answered "c" "f" "p" (sampleBudget 2) [] [.startReproduction ⟨2, "plan"⟩]
    (.startInvestigation ⟨1, "start"⟩) (.resolve ⟨7, "start"⟩ "again") _ (by decide) rfl

end InvestigationCase

end Qualigence.Investigation
