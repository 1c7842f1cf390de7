import Mathlib.Data.Rat.Defs
import Mathlib.Algebra.Order.Field.Rat

/-! # Investigation budgets

An investigation has a ceiling for every dimension of its budget. The ledger counts the plan
revisions and the attempts by their outcomes, adds the resources that an attempt reports, and tells
which dimensions have reached their ceilings.
-/

namespace Qualigence.Investigation

inductive BudgetDimension where
  | reproductionAttempts
  | planningRevisions
  | environmentRetries
  | wallClockMs
  | modelTokens
  | environmentResets
  | destructiveActions
  deriving DecidableEq

/-- In the order in which they are evaluated. -/
def BudgetDimension.all : List BudgetDimension :=
  [.reproductionAttempts, .planningRevisions, .environmentRetries, .wallClockMs, .modelTokens,
    .environmentResets, .destructiveActions]

theorem BudgetDimension.mem_all (dimension : BudgetDimension) : dimension ∈ all := by
  cases dimension <;> decide

structure InvestigationBudget where
  maximumReproductionAttempts : ℚ
  maximumPlanningRevisions : ℚ
  maximumEnvironmentRetries : ℚ
  maximumWallClockMs : ℚ
  maximumModelTokens : ℚ
  maximumEnvironmentResets : ℚ
  maximumDestructiveActions : ℚ
  confirmationConfidenceThreshold : ℚ
  deriving DecidableEq

def InvestigationBudget.ceiling (budget : InvestigationBudget) : BudgetDimension → ℚ
  | .reproductionAttempts => budget.maximumReproductionAttempts
  | .planningRevisions => budget.maximumPlanningRevisions
  | .environmentRetries => budget.maximumEnvironmentRetries
  | .wallClockMs => budget.maximumWallClockMs
  | .modelTokens => budget.maximumModelTokens
  | .environmentResets => budget.maximumEnvironmentResets
  | .destructiveActions => budget.maximumDestructiveActions

/-- A number for every dimension. -/
structure InvestigationBudgetUsage (N : Type) where
  reproductionAttempts : N
  planningRevisions : N
  environmentRetries : N
  wallClockMs : N
  modelTokens : N
  environmentResets : N
  destructiveActions : N
  deriving DecidableEq

namespace InvestigationBudgetUsage

variable {N : Type}

def get (usage : InvestigationBudgetUsage N) : BudgetDimension → N
  | .reproductionAttempts => usage.reproductionAttempts
  | .planningRevisions => usage.planningRevisions
  | .environmentRetries => usage.environmentRetries
  | .wallClockMs => usage.wallClockMs
  | .modelTokens => usage.modelTokens
  | .environmentResets => usage.environmentResets
  | .destructiveActions => usage.destructiveActions

/-- `usage[dimension] += amount`. -/
def add (usage : InvestigationBudgetUsage ℚ) (amount : ℚ) :
    BudgetDimension → InvestigationBudgetUsage ℚ
  | .reproductionAttempts =>
    { usage with reproductionAttempts := usage.reproductionAttempts + amount }
  | .planningRevisions => { usage with planningRevisions := usage.planningRevisions + amount }
  | .environmentRetries => { usage with environmentRetries := usage.environmentRetries + amount }
  | .wallClockMs => { usage with wallClockMs := usage.wallClockMs + amount }
  | .modelTokens => { usage with modelTokens := usage.modelTokens + amount }
  | .environmentResets => { usage with environmentResets := usage.environmentResets + amount }
  | .destructiveActions => { usage with destructiveActions := usage.destructiveActions + amount }

@[simp] theorem get_add_self (usage : InvestigationBudgetUsage ℚ) (amount : ℚ)
    (dimension : BudgetDimension) :
    (usage.add amount dimension).get dimension = usage.get dimension + amount := by
  cases dimension <;> rfl

theorem get_add_of_ne {dimension dimension' : BudgetDimension} (h : dimension' ≠ dimension)
    (usage : InvestigationBudgetUsage ℚ) (amount : ℚ) :
    (usage.add amount dimension).get dimension' = usage.get dimension' := by
  cases dimension <;> cases dimension' <;> first | rfl | exact absurd rfl h

def zero : InvestigationBudgetUsage ℚ := ⟨0, 0, 0, 0, 0, 0, 0⟩

@[simp] theorem get_zero (dimension : BudgetDimension) : zero.get dimension = 0 := by
  cases dimension <;> rfl

end InvestigationBudgetUsage

inductive ReproductionOutcome where
  | reproduced
  | not_reproduced
  | diverged
  | environment_failed
  | blocked
  deriving DecidableEq

/-- An environment failure is no reproduction attempt. -/
def outcomeConsumesReproductionAttempt (outcome : ReproductionOutcome) : Bool :=
  decide (outcome ≠ .environment_failed)

/-- A reported amount that is not finite is `none`. -/
abbrev ReportedUsage := InvestigationBudgetUsage (Option ℚ)

structure ReproductionAttemptDraft where
  attemptId : String
  environmentRef : String
  startedAt : String
  completedAt : String
  outcome : ReproductionOutcome
  divergenceStepId : Option String
  evidenceRefs : List String
  budgetConsumed : ReportedUsage
  deriving DecidableEq

structure ReproductionAttempt extends ReproductionAttemptDraft where
  caseId : String
  ordinal : ℕ
  planRevision : ℕ
  deriving DecidableEq

structure BudgetConsumeResult where
  usage : InvestigationBudgetUsage ℚ
  exhaustedDimensions : List BudgetDimension
  deriving DecidableEq

def BudgetConsumeResult.exhausted (result : BudgetConsumeResult) : Bool :=
  decide (0 < result.exhaustedDimensions.length)

namespace InvestigationBudgetLedger

def evaluate (budget : InvestigationBudget) (usage : InvestigationBudgetUsage ℚ) :
    BudgetConsumeResult where
  usage := usage
  exhaustedDimensions := BudgetDimension.all.filter fun dimension =>
    budget.ceiling dimension ≤ usage.get dimension

theorem exhausted_evaluate (budget : InvestigationBudget) (usage : InvestigationBudgetUsage ℚ) :
    (evaluate budget usage).exhausted ↔
      ∃ dimension, budget.ceiling dimension ≤ usage.get dimension := by
  rw [BudgetConsumeResult.exhausted, decide_eq_true_iff, List.length_pos_iff_exists_mem]
  simp [evaluate, BudgetDimension.mem_all]

/-- `must be a non-negative finite number` -/
def nonNegative (value : Option ℚ) (dimension : BudgetDimension) : Except BudgetDimension ℚ :=
  match value with
  | none => .error dimension
  | some amount => if amount < 0 then .error dimension else .ok amount

def consumePlanRevision (usage : InvestigationBudgetUsage ℚ) : InvestigationBudgetUsage ℚ :=
  usage.add 1 .planningRevisions

/-- The resources are added one after the other, until one is refused. -/
def consumeResources (consumed : ReportedUsage) :
    List BudgetDimension → InvestigationBudgetUsage ℚ →
      Except BudgetDimension Unit × InvestigationBudgetUsage ℚ
  | [], usage => (.ok (), usage)
  | dimension :: dimensions, usage =>
    match nonNegative (consumed.get dimension) dimension with
    | .error refused => (.error refused, usage)
    | .ok amount => consumeResources consumed dimensions (usage.add amount dimension)

def resources : List BudgetDimension :=
  [.wallClockMs, .modelTokens, .environmentResets, .destructiveActions]

/-- The dimension in which an outcome is counted. -/
def countedDimension (outcome : ReproductionOutcome) : BudgetDimension :=
  if outcomeConsumesReproductionAttempt outcome then .reproductionAttempts else .environmentRetries

def consumeAttempt (usage : InvestigationBudgetUsage ℚ) (attempt : ReproductionAttempt) :
    Except BudgetDimension Unit × InvestigationBudgetUsage ℚ :=
  consumeResources attempt.budgetConsumed resources
    (usage.add 1 (countedDimension attempt.outcome))

/-! ## What is consumed -/

/-- The reported resources are finite and not negative. -/
def ValidConsumption (consumed : ReportedUsage) : Prop :=
  ∀ dimension ∈ resources, ∃ amount, consumed.get dimension = some amount ∧ 0 ≤ amount

theorem get_consumeResources {consumed : ReportedUsage} {dimension : BudgetDimension} :
    ∀ {dimensions : List BudgetDimension} {usage : InvestigationBudgetUsage ℚ},
      dimension ∉ dimensions →
      (consumeResources consumed dimensions usage).2.get dimension = usage.get dimension
  | [], _, _ => rfl
  | d :: dimensions, usage, h => by
    rw [List.mem_cons, not_or] at h
    rw [consumeResources]
    split
    · rfl
    · rw [get_consumeResources h.2, InvestigationBudgetUsage.get_add_of_ne h.1]

/-- An attempt is counted in the dimension of its outcome, whatever resources it reports. -/
theorem get_consumeAttempt {usage : InvestigationBudgetUsage ℚ} {attempt : ReproductionAttempt}
    {dimension : BudgetDimension} (h : dimension ∉ resources) :
    (consumeAttempt usage attempt).2.get dimension = usage.get dimension +
      if dimension = countedDimension attempt.outcome then 1 else 0 := by
  rw [consumeAttempt, get_consumeResources h]
  split
  · next he => rw [← he, InvestigationBudgetUsage.get_add_self]
  · next he => rw [InvestigationBudgetUsage.get_add_of_ne he, add_zero]

theorem consumeResources_of_valid {consumed : ReportedUsage} :
    ∀ {dimensions : List BudgetDimension} {usage : InvestigationBudgetUsage ℚ},
      (∀ dimension ∈ dimensions, ∃ amount, consumed.get dimension = some amount ∧ 0 ≤ amount) →
      (consumeResources consumed dimensions usage).1 = .ok ()
  | [], _, _ => rfl
  | d :: dimensions, usage, h => by
    obtain ⟨amount, ha, hn⟩ := h d List.mem_cons_self
    have hd : nonNegative (consumed.get d) d = .ok amount := by
      rw [ha, nonNegative, if_neg (not_lt.mpr hn)]
    rw [consumeResources, hd]
    exact consumeResources_of_valid fun d' hd' => h d' (List.mem_cons_of_mem _ hd')

theorem consumeAttempt_of_valid {usage : InvestigationBudgetUsage ℚ}
    {attempt : ReproductionAttempt} (h : ValidConsumption attempt.budgetConsumed) :
    (consumeAttempt usage attempt).1 = .ok () := consumeResources_of_valid h

end InvestigationBudgetLedger

end Qualigence.Investigation
