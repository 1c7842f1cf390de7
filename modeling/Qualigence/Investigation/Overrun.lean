import Mathlib.Tactic.NormNum
import Qualigence.Foundation.History
import Qualigence.Investigation.Case

/-! # Budgets over a run

A case in progress has no exhausted dimension, unless it is kept open by an attempt that reproduced
the finding. While no plan is revised and no attempt is appended in a case that is kept open, and
the attempts report amounts, the counted dimensions stay within their ceilings.
-/

namespace Qualigence.Investigation

open InvestigationBudgetLedger

def InvestigationCommand.base : InvestigationCommand → InvestigationCommandBase
  | .startInvestigation base => base
  | .startReproduction base => base
  | .appendAttempt base _ => base
  | .confirm base _ => base
  | .refute base _ => base
  | .markFlaky base _ => base
  | .escalateToHuman base _ => base
  | .resolve base _ => base
  | .verifyRegression base => base

/-- The command revises the plan or appends an attempt. -/
def InvestigationCommand.consumes : InvestigationCommand → Bool
  | .startReproduction _ => true
  | .appendAttempt _ _ => true
  | _ => false

/-- The dimensions that are counted by the case itself. -/
def counted : List BudgetDimension :=
  [.reproductionAttempts, .planningRevisions, .environmentRetries]

theorem counted_of_outcome (outcome : ReproductionOutcome) :
    countedDimension outcome ∈ counted := by
  unfold countedDimension
  split <;> decide

theorem not_mem_resources : ∀ dimension ∈ counted, dimension ∉ resources := by decide

namespace InvestigationCase

variable {c : InvestigationCase} {command : InvestigationCommand}

/-- The case is in progress. -/
def InProgress (c : InvestigationCase) : Prop :=
  c.status ∈ [.candidate, .investigating, .reproducing]

instance : Decidable c.InProgress := inferInstanceAs (Decidable (_ ∈ _))

/-- The last attempt reproduced the finding and a dimension has reached its ceiling. -/
def KeptOpen (c : InvestigationCase) : Prop :=
  (∃ attempt, c.attempts.getLast? = some attempt ∧ attempt.outcome = .reproduced) ∧
    c.evaluation.exhausted

/-- The command is no replay, and it has a legal status and the current version. -/
def Taken (c : InvestigationCase) (command : InvestigationCommand) : Prop :=
  c.replay command.base = none ∧ command.base.expectedVersion = c.version ∧
    match command with
    | .startReproduction _ => c.status = .investigating ∨ c.status = .reproducing
    | _ => c.status = .reproducing

/-- What an attempt reports is an amount. -/
def Valid (c : InvestigationCase) (command : InvestigationCommand) : Prop :=
  match command with
  | .appendAttempt _ draft => c.Taken command → ValidConsumption draft.budgetConsumed
  | _ => True

/-- No budget is consumed in a case that is kept open. -/
def Meets (c : InvestigationCase) (command : InvestigationCommand) : Prop :=
  c.Valid command ∧ (command.consumes → c.Taken command → ¬ c.KeptOpen)

/-! ## Steps -/

theorem transact_cases (base : InvestigationCommandBase) (legal : List InvestigationStatus)
    (toStatus : InvestigationStatus) (body : Outcome) :
    (∃ result, c.transact base legal toStatus body = (result, c) ∧
      (c.replay base = none → (∃ error, result = .error error) ∧
        ¬ (c.status ∈ legal ∧ base.expectedVersion = c.version))) ∨
    (c.replay base = none ∧ c.status ∈ legal ∧ base.expectedVersion = c.version ∧
      c.transact base legal toStatus body = body) := by
  unfold transact
  cases hr : c.replay base with
  | some transition =>
    left
    refine ⟨.ok transition, rfl, ?_⟩
    simp
  | none =>
    simp only
    by_cases hl : c.status ∈ legal
    · rw [if_neg (not_not.mpr hl)]
      by_cases hv : base.expectedVersion = c.version
      · rw [if_neg (not_not.mpr hv)]
        exact .inr ⟨trivial, hl, hv, rfl⟩
      · rw [if_pos hv]
        exact .inl ⟨_, rfl, fun _ => ⟨⟨_, rfl⟩, fun h => hv h.2⟩⟩
    · rw [if_pos hl]
      exact .inl ⟨_, rfl, fun _ => ⟨⟨_, rfl⟩, fun h => hl h.1⟩⟩

/-- The ledger and the attempts are the same, and a case in progress was in progress. -/
structure Idle (c c' : InvestigationCase) : Prop where
  budget : c'.budget = c.budget
  usage : c'.usage = c.usage
  attempts : c'.attempts = c.attempts
  inProgress : c'.InProgress → c.InProgress

theorem Idle.refl (c : InvestigationCase) : c.Idle c := ⟨rfl, rfl, rfl, id⟩

theorem idle_transact {base : InvestigationCommandBase} {legal : List InvestigationStatus}
    {toStatus : InvestigationStatus} {body : Outcome}
    (h : c.status ∈ legal → c.Idle body.2) : c.Idle (c.transact base legal toStatus body).2 := by
  rcases transact_cases base legal toStatus body with ⟨result, he, -⟩ | ⟨-, hl, -, he⟩
  · rw [he]
    exact .refl c
  · rw [he]
    exact h hl

theorem idle_commit {c' : InvestigationCase} (hb : c'.budget = c.budget) (hu : c'.usage = c.usage)
    (ha : c'.attempts = c.attempts) {base : InvestigationCommandBase}
    {toStatus : InvestigationStatus} {extras : TransitionExtras}
    (h : toStatus ∈ [.candidate, .investigating, .reproducing] → c.InProgress) :
    c.Idle (c'.commit base toStatus extras).2 := ⟨hb, hu, ha, h⟩

theorem idle_apply (h : command.consumes = false) : c.Idle (c.apply command).2 := by
  cases command with
  | startInvestigation base =>
    apply idle_transact
    intro hl
    have hp : c.InProgress := by
      rw [InProgress, List.mem_singleton.mp hl]
      decide
    exact idle_commit rfl rfl rfl fun _ => hp
  | startReproduction base => cases h
  | appendAttempt base draft => cases h
  | confirm base draft =>
    apply idle_transact
    intro hl
    simp only
    split
    · exact .refl c
    · split
      · exact .refl c
      · split
        · exact .refl c
        · refine ⟨rfl, rfl, rfl, fun hp => absurd hp ?_⟩
          simp [InProgress, commit]
  | refute base reason =>
    refine idle_transact fun _ => idle_commit rfl rfl rfl ?_
    simp
  | markFlaky base reason =>
    refine idle_transact fun _ => idle_commit rfl rfl rfl ?_
    simp
  | escalateToHuman base draft =>
    refine idle_transact fun _ => ⟨rfl, rfl, rfl, fun hp => absurd hp ?_⟩
    simp [InProgress, commit]
  | resolve base disposition =>
    refine idle_transact fun _ => idle_commit rfl rfl rfl ?_
    simp
  | verifyRegression base =>
    refine idle_transact fun _ => idle_commit rfl rfl rfl ?_
    simp

/-- What a command that consumes budget does when it is taken. -/
structure Spends (c c' : InvestigationCase) (dimension : BudgetDimension) : Prop where
  budget : c'.budget = c.budget
  usage : ∀ d ∈ counted, c'.usage.get d = c.usage.get d + if d = dimension then 1 else 0
  keptOpen : c'.InProgress → c'.evaluation.exhausted → c'.KeptOpen

theorem spends_revised (base : InvestigationCommandBase) :
    c.Spends (if c.revised.evaluation.exhausted then
      c.revised.commitNeedsHuman base c.revised.evaluation.exhaustedDimensions none
    else c.revised.commit base .reproducing {}).2 .planningRevisions := by
  have hu : ∀ d ∈ counted, c.revised.usage.get d =
      c.usage.get d + if d = .planningRevisions then 1 else 0 := by
    intro d _
    by_cases hd : d = .planningRevisions
    · rw [if_pos hd, hd, revised, consumePlanRevision, InvestigationBudgetUsage.get_add_self]
    · rw [if_neg hd, add_zero, revised, consumePlanRevision,
        InvestigationBudgetUsage.get_add_of_ne hd]
  split
  · refine ⟨rfl, hu, fun hp => absurd hp ?_⟩
    simp [InProgress, commitNeedsHuman, commit]
  · next he => exact ⟨rfl, hu, fun _ hx => absurd hx he⟩

theorem spends_appended (base : InvestigationCommandBase) (draft : ReproductionAttemptDraft) :
    c.Spends (if (c.appended draft).evaluation.exhausted ∧ draft.outcome ≠ .reproduced then
      (c.appended draft).commitNeedsHuman base (c.appended draft).evaluation.exhaustedDimensions
        (some (c.stamp draft))
    else (c.appended draft).commit base .reproducing
      { appendedAttempt := some (c.stamp draft) }).2 (countedDimension draft.outcome) := by
  have hu : ∀ d ∈ counted, (c.appended draft).usage.get d =
      c.usage.get d + if d = countedDimension draft.outcome then 1 else 0 :=
    fun d hd => get_consumeAttempt (not_mem_resources d hd)
  split
  · refine ⟨rfl, hu, fun hp => absurd hp ?_⟩
    simp [InProgress, commitNeedsHuman, commit]
  · next he =>
    refine ⟨rfl, hu, fun _ hx => ⟨⟨c.stamp draft, ?_, ?_⟩, hx⟩⟩
    · simp [commit, appended]
    · by_contra ho
      exact he ⟨hx, ho⟩

/-- A taken command that consumes budget is accepted when the attempt reports amounts. -/
theorem taken_cases (hc : command.consumes) (hv : c.Valid command) :
    (¬ c.Taken command ∧ ∃ result, c.apply command = (result, c) ∧
      (c.replay command.base = none → ∃ error, result = .error error)) ∨
    c.Taken command ∧ (∃ transition, (c.apply command).1 = .ok transition) ∧
      ∃ dimension ∈ counted, c.Spends (c.apply command).2 dimension := by
  cases command with
  | startReproduction base =>
    rcases transact_cases (c := c) base [.investigating, .reproducing] .reproducing _ with
      ⟨result, hres, hn⟩ | ⟨hr, hl, he, ht⟩
    · refine .inl ⟨?_, result, hres, fun hr => (hn hr).1⟩
      rintro ⟨hr, he, hs⟩
      exact (hn hr).2 ⟨by simpa using hs, he⟩
    · right
      have hs : c.status = .investigating ∨ c.status = .reproducing := by simpa using hl
      have ha : c.apply (.startReproduction base) = _ := ht
      rw [ha]
      refine ⟨⟨hr, he, hs⟩, ?_, .planningRevisions, by decide, spends_revised base⟩
      split
      · exact ⟨_, rfl⟩
      · exact ⟨_, rfl⟩
  | appendAttempt base draft =>
    rcases transact_cases (c := c) base [.reproducing] .reproducing _ with
      ⟨result, hres, hn⟩ | ⟨hr, hl, he, ht⟩
    · refine .inl ⟨?_, result, hres, fun hr => (hn hr).1⟩
      rintro ⟨hr, he, hs⟩
      exact (hn hr).2 ⟨List.mem_singleton.mpr hs, he⟩
    · right
      have htaken : c.Taken (.appendAttempt base draft) := ⟨hr, he, List.mem_singleton.mp hl⟩
      have hok : (consumeAttempt c.usage (c.stamp draft)).1 = .ok () :=
        consumeAttempt_of_valid (hv htaken)
      have ha : c.apply (.appendAttempt base draft) = _ := ht
      simp only [hok] at ha
      rw [ha]
      refine ⟨htaken, ?_, countedDimension draft.outcome, counted_of_outcome _,
        spends_appended base draft⟩
      split
      · exact ⟨_, rfl⟩
      · exact ⟨_, rfl⟩
  | _ => cases hc

/-! ## Runs -/

/-- The counted dimensions count commands and are within their ceilings, and a case in progress that
has exhausted a dimension is kept open. -/
structure Sound (c : InvestigationCase) : Prop where
  whole : ∀ d ∈ counted, ∃ n : ℕ, c.usage.get d = n
  ceilings : ∀ d ∈ counted, ∃ n : ℕ, c.budget.ceiling d = n
  within : ∀ d ∈ counted, c.usage.get d ≤ c.budget.ceiling d
  keptOpen : c.InProgress → c.evaluation.exhausted → c.KeptOpen

theorem Taken.inProgress (h : c.Taken command) (hc : command.consumes) : c.InProgress := by
  cases command with
  | startReproduction base =>
    rcases h.2.2 with hs | hs
    · rw [InProgress, hs]
      decide
    · rw [InProgress, hs]
      decide
  | appendAttempt base draft =>
    rw [InProgress, h.2.2]
    decide
  | _ => cases hc

theorem Sound.of_idle {c' : InvestigationCase} (h : c.Sound) (hi : c.Idle c') : c'.Sound where
  whole := hi.usage ▸ h.whole
  ceilings := hi.budget ▸ h.ceilings
  within := by
    rw [hi.usage, hi.budget]
    exact h.within
  keptOpen hp hx := by
    rw [evaluation, hi.usage, hi.budget] at hx
    obtain ⟨ha, -⟩ := h.keptOpen (hi.inProgress hp) hx
    refine ⟨hi.attempts ▸ ha, ?_⟩
    rw [evaluation, hi.usage, hi.budget]
    exact hx

/-- A count that is below its ceiling can be raised by one. -/
theorem Sound.of_spends {c' : InvestigationCase} {dimension : BudgetDimension} (h : c.Sound)
    (hx : ¬ c.evaluation.exhausted) (hs : c.Spends c' dimension) : c'.Sound where
  whole d hd := by
    obtain ⟨n, hn⟩ := h.whole d hd
    rw [hs.usage d hd, hn]
    split
    · exact ⟨n + 1, by push_cast; rfl⟩
    · exact ⟨n, by simp⟩
  ceilings := hs.budget ▸ h.ceilings
  within d hd := by
    obtain ⟨n, hn⟩ := h.whole d hd
    obtain ⟨m, hm⟩ := h.ceilings d hd
    have hlt : c.usage.get d < c.budget.ceiling d := by
      by_contra hle
      exact hx ((exhausted_evaluate _ _).mpr ⟨d, not_lt.mp hle⟩)
    rw [hn, hm, Nat.cast_lt] at hlt
    rw [hs.usage d hd, hs.budget, hn, hm]
    split
    · exact_mod_cast hlt
    · rw [add_zero]
      exact_mod_cast hlt.le
  keptOpen := hs.keptOpen

/-- What a command keeps of the budget: the counted dimensions are within their ceilings after it,
an environment failure is no reproduction attempt, and nothing is accepted that consumes budget
when a dimension is exhausted. -/
structure BudgetKept (c : InvestigationCase) (command : InvestigationCommand) : Prop where
  within : ∀ d ∈ counted, (c.apply command).2.usage.get d ≤ (c.apply command).2.budget.ceiling d
  environment : ∀ base draft, command = .appendAttempt base draft →
    draft.outcome = .environment_failed →
      (c.apply command).2.usage.reproductionAttempts ≤ c.usage.reproductionAttempts
  accepted : command.consumes → c.replay command.base = none → c.evaluation.exhausted →
    ∃ error, (c.apply command).1 = .error error

theorem reproductionAttempts_of_environment_failed {base : InvestigationCommandBase}
    {draft : ReproductionAttemptDraft} (h : draft.outcome = .environment_failed) :
    (c.apply (.appendAttempt base draft)).2.usage.reproductionAttempts ≤
      c.usage.reproductionAttempts := by
  have hu : (c.appended draft).usage.reproductionAttempts = c.usage.reproductionAttempts := by
    have hd : countedDimension (c.stamp draft).outcome = .environmentRetries := by
      rw [show (c.stamp draft).outcome = draft.outcome from rfl, h]
      rfl
    have hg : (c.appended draft).usage.get .reproductionAttempts = _ :=
      get_consumeAttempt (not_mem_resources .reproductionAttempts (by decide))
    rw [hd, if_neg (by decide), add_zero] at hg
    exact hg
  rcases transact_cases (c := c) base [.reproducing] .reproducing _ with ⟨_, he, -⟩ | ⟨_, _, _, ht⟩
  · have ha : c.apply (.appendAttempt base draft) = _ := he
    rw [ha]
  · have ha : c.apply (.appendAttempt base draft) = _ := ht
    simp only at ha
    rw [ha]
    split
    · exact hu.le
    · split
      · exact hu.le
      · exact hu.le

theorem kept_of_meets (h : c.Sound) (hm : c.Meets command) :
    c.BudgetKept command ∧ (c.apply command).2.Sound := by
  have henv : ∀ base draft, command = .appendAttempt base draft →
      draft.outcome = .environment_failed →
        (c.apply command).2.usage.reproductionAttempts ≤ c.usage.reproductionAttempts := by
    rintro base draft rfl ho
    exact reproductionAttempts_of_environment_failed ho
  cases hc : command.consumes with
  | false =>
    have hs := h.of_idle (idle_apply hc)
    exact ⟨⟨hs.within, henv, by simp [hc]⟩, hs⟩
  | true =>
    rcases taken_cases hc hm.1 with ⟨-, result, ha, herr⟩ | ⟨ht, -, d, -, hd⟩
    · refine ⟨⟨?_, henv, ?_⟩, ?_⟩
      · rw [ha]
        exact h.within
      · intro _ hr _
        rw [ha]
        exact herr hr
      · rw [ha]
        exact h
    · have hx : ¬ c.evaluation.exhausted := fun hx =>
        hm.2 hc ht (h.keptOpen (ht.inProgress hc) hx)
      have hs := h.of_spends hx hd
      exact ⟨⟨hs.within, henv, fun _ _ he => absurd he hx⟩, hs⟩

theorem meets_of_kept (hv : c.Valid command) (hk : c.BudgetKept command) : c.Meets command := by
  refine ⟨hv, ?_⟩
  intro hc ht ho
  obtain ⟨error, he⟩ := hk.accepted hc ht.1 ho.2
  rcases taken_cases hc hv with ⟨hn, -⟩ | ⟨-, ⟨transition, ha⟩, -⟩
  · exact hn ht
  · rw [ha] at he
    cases he

/-- The case after a command. -/
def next (c : InvestigationCase) (command : InvestigationCommand) : InvestigationCase :=
  (c.apply command).2

/-- The budget of a case is kept from the start and by every command. -/
def NeverOverrun (c : InvestigationCase) (commands : List InvestigationCommand) : Prop :=
  (∀ d ∈ counted, c.usage.get d ≤ c.budget.ceiling d) ∧
    Foundation.Meets next BudgetKept c commands

theorem sound_opened {budget : InvestigationBudget} (hpos : ∀ d, 0 < budget.ceiling d)
    (hwhole : ∀ d ∈ counted, ∃ n : ℕ, budget.ceiling d = n) (caseId findingId projectId : String) :
    (opened caseId findingId projectId budget).Sound where
  whole d _ := ⟨0, by simp [opened]⟩
  ceilings := hwhole
  within d _ := by
    rw [opened, InvestigationBudgetUsage.get_zero]
    exact (hpos d).le
  keptOpen _ hx := by
    obtain ⟨d, hd⟩ := (exhausted_evaluate _ _).mp hx
    rw [opened, InvestigationBudgetUsage.get_zero] at hd
    exact absurd (hpos d) (not_lt.mpr hd)

/-- While no command consumes budget in a case that is kept open, and the appended attempts report
amounts, no budget is overrun; and when they report amounts, the budget is kept only so. -/
theorem budget_never_overrun (budget : InvestigationBudget) (hpos : ∀ d, 0 < budget.ceiling d)
    (hwhole : ∀ d ∈ counted, ∃ n : ℕ, budget.ceiling d = n) (caseId findingId projectId : String)
    (commands : List InvestigationCommand) :
    (Foundation.Meets next Meets (opened caseId findingId projectId budget) commands →
      (opened caseId findingId projectId budget).NeverOverrun commands) ∧
    (Foundation.Meets next Valid (opened caseId findingId projectId budget) commands →
      (opened caseId findingId projectId budget).NeverOverrun commands →
        Foundation.Meets next Meets (opened caseId findingId projectId budget) commands) := by
  have hs := sound_opened hpos hwhole caseId findingId projectId
  constructor
  · intro hm
    refine ⟨hs.within, hm.imp (I := Sound) (fun c command hs hm => ?_) hs⟩
    exact kept_of_meets hs hm
  · intro hv hk
    refine (hv.and hk.2).imp (I := fun _ => True) (fun c command _ h => ?_) trivial
    exact ⟨meets_of_kept h.1 h.2, trivial⟩

/-! ### Runs that overrun -/

def sampleBudget (attempts : ℚ) : InvestigationBudget := ⟨attempts, 5, 5, 1000, 1000, 5, 5, 1⟩

def sampleAttempt (outcome : ReproductionOutcome) (wallClockMs : ℚ) : ReproductionAttemptDraft :=
  ⟨"attempt", "env", "start", "end", outcome, none, [],
    ⟨some 0, some 0, some 0, some wallClockMs, some 0, some 0, some 0⟩⟩

def started (attempts : ℚ) : InvestigationCase :=
  (opened "case" "finding" "project" (sampleBudget attempts)).runs
    [.startInvestigation ⟨1, "a"⟩, .startReproduction ⟨2, "b"⟩]

theorem ceiling_sampleBudget {attempts : ℚ} (h : 0 < attempts) (d : BudgetDimension) :
    0 < (sampleBudget attempts).ceiling d := by
  cases d <;> simp [sampleBudget, InvestigationBudget.ceiling, h]

theorem not_keptOpen {c : InvestigationCase} (h : c.attempts = []) : ¬ c.KeptOpen := by
  rintro ⟨⟨attempt, ha, -⟩, -⟩
  rw [h] at ha
  cases ha

theorem validConsumption_sampleAttempt {wallClockMs : ℚ} (h : 0 ≤ wallClockMs)
    (outcome : ReproductionOutcome) :
    ValidConsumption (sampleAttempt outcome wallClockMs).budgetConsumed := by
  intro d hd
  simp only [resources, List.mem_cons, List.not_mem_nil, or_false] at hd
  rcases hd with rfl | rfl | rfl | rfl
  · exact ⟨_, rfl, h⟩
  all_goals exact ⟨0, rfl, le_rfl⟩

theorem whole_sampleBudget : ∀ d ∈ counted, ∃ n : ℕ, (sampleBudget 2).ceiling d = n := by
  intro d hd
  simp only [counted, List.mem_cons, List.not_mem_nil, or_false] at hd
  rcases hd with rfl | rfl | rfl
  · exact ⟨2, rfl⟩
  all_goals exact ⟨5, rfl⟩

/-- A budget of two attempts is kept by one that did not reproduce the finding. -/
theorem attempt_within_budget :
    (opened "case" "finding" "project" (sampleBudget 2)).NeverOverrun
      [.startInvestigation ⟨1, "a"⟩, .startReproduction ⟨2, "b"⟩,
        .appendAttempt ⟨3, "c"⟩ (sampleAttempt .not_reproduced 10)] := by
  refine (budget_never_overrun (sampleBudget 2) (ceiling_sampleBudget (by norm_num))
    whole_sampleBudget "case" "finding" "project" _).1
    ⟨⟨trivial, ?_⟩, ⟨trivial, ?_⟩, ⟨?_, ?_⟩, trivial⟩
  · exact fun _ _ => not_keptOpen (by decide)
  · exact fun _ _ => not_keptOpen (by decide)
  · exact fun _ => validConsumption_sampleAttempt (by norm_num) _
  · exact fun _ _ => not_keptOpen (by decide +kernel)

/-- Two attempts that reproduce the finding are appended under a ceiling of one. -/
def overrunningCommands : List InvestigationCommand :=
  [.startInvestigation ⟨1, "a"⟩, .startReproduction ⟨2, "b"⟩,
    .appendAttempt ⟨3, "c"⟩ (sampleAttempt .reproduced 10),
    .appendAttempt ⟨4, "d"⟩ (sampleAttempt .reproduced 10)]

/-- The ceiling of one is overrun by two attempts that reproduce, and by two that are refused for a
negative amount; and a ceiling of two and a half by three attempts. -/
theorem reproduced_attempts_overrun :
    (∀ d, 0 < (sampleBudget 1).ceiling d) ∧
    ¬ (opened "case" "finding" "project" (sampleBudget 1)).NeverOverrun overrunningCommands ∧
    ((opened "case" "finding" "project" (sampleBudget 1)).runs
      overrunningCommands).usage.reproductionAttempts = 2 ∧
    ((started 1).runs [.appendAttempt ⟨3, "c"⟩ (sampleAttempt .not_reproduced (-1)),
      .appendAttempt ⟨3, "c"⟩ (sampleAttempt .not_reproduced (-1))]).usage.reproductionAttempts =
        2 ∧
    ((started (5 / 2)).runs [.appendAttempt ⟨3, "c"⟩ (sampleAttempt .not_reproduced 10),
      .appendAttempt ⟨4, "d"⟩ (sampleAttempt .not_reproduced 10),
      .appendAttempt ⟨5, "e"⟩ (sampleAttempt .not_reproduced 10)]).usage.reproductionAttempts =
        3 := by
  refine ⟨ceiling_sampleBudget (by norm_num), ?_, by decide +kernel, by decide +kernel,
    by decide +kernel⟩
  intro h
  have hw := h.2.2.2.2.1.within .reproductionAttempts (by decide)
  exact absurd hw (by decide +kernel)

end InvestigationCase

end Qualigence.Investigation
