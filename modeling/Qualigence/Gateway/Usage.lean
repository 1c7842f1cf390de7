import Mathlib.Data.List.Induction
import Mathlib.Data.Nat.Notation

/-! # Token usage

A provider reports how many tokens an attempt took, as far as it knows. The gateway adds the reports
of its attempts up; the usage is available as long as each attempt reported a total.
-/

namespace Qualigence.Gateway

/-- The numbers of the language as far as usage needs them. A report may carry any of them. -/
structure Numbers (N : Type) where
  zero : N
  add : N → N → N
  isSafeInteger : N → Bool
  isNonNegative : N → Bool

structure ModelUsage (N : Type) where
  inputTokens : Option N
  outputTokens : Option N
  totalTokens : Option N
  deriving DecidableEq

inductive ModelUsageState (N : Type) where
  | available (usage : ModelUsage N)
  | unavailable (knownUsage : Option (ModelUsage N))
  deriving DecidableEq

variable {N : Type} (num : Numbers N)

def usageState (usage : Option (ModelUsage N)) (unavailable : Bool) : ModelUsageState N :=
  match usage with
  | some u => if unavailable then .unavailable (some u) else .available u
  | none => .unavailable none

def usageFromState : ModelUsageState N → Option (ModelUsage N)
  | .available usage => some usage
  | .unavailable knownUsage => knownUsage

def isNonNegativeSafeInteger (value : Option N) : Option N :=
  value.filter fun n => num.isSafeInteger n && num.isNonNegative n

/-- The total of a report, given or added up; `none` if the report has no valid one. -/
def usageTotal (usage : ModelUsage N) : Option N :=
  match isNonNegativeSafeInteger num usage.totalTokens with
  | some total => some total
  | none =>
    match isNonNegativeSafeInteger num usage.inputTokens,
      isNonNegativeSafeInteger num usage.outputTokens with
    | some input, some output =>
      if num.isSafeInteger (num.add input output) then some (num.add input output) else none
    | _, _ => none

def addUsageField (current next : Option N) : Option N :=
  match next with
  | none => current
  | some value => some (num.add (current.getD num.zero) value)

def addUsage (current : Option (ModelUsage N)) (next : ModelUsage N) : ModelUsage N where
  inputTokens := addUsageField num (current.bind (·.inputTokens)) next.inputTokens
  outputTokens := addUsageField num (current.bind (·.outputTokens)) next.outputTokens
  totalTokens := addUsageField num (current.bind (·.totalTokens)) next.totalTokens

/-- The four variables of the retry loop that keep the usage. -/
structure Accumulated (N : Type) where
  usage : Option (ModelUsage N)
  totalTokens : N
  available : Bool
  known : Bool

def Accumulated.start : Accumulated N := ⟨none, num.zero, true, false⟩

def accumulateUsage (current : Accumulated N) : Option (ModelUsage N) → Accumulated N
  | none => { current with available := false }
  | some next =>
    { usage := some (addUsage num current.usage next)
      totalTokens := match usageTotal num next with
        | none => current.totalTokens
        | some total => num.add current.totalTokens total
      available := current.available && (usageTotal num next).isSome
      known := current.known || (usageTotal num next).isSome }

def normalizedUsage (usage : ModelUsage N) (totalTokens : N) : ModelUsage N :=
  { usage with totalTokens := some totalTokens }

def completeUsage (acc : Accumulated N) : Option (ModelUsage N) :=
  if acc.available then acc.usage.map (normalizedUsage · acc.totalTokens) else none

def knownUsage (acc : Accumulated N) : Option (ModelUsage N) :=
  if acc.known then acc.usage.map (normalizedUsage · acc.totalTokens) else acc.usage

def accumulatedUsageState (acc : Accumulated N) : ModelUsageState N :=
  match knownUsage acc with
  | some accumulated =>
    if acc.available then .available accumulated else .unavailable (some accumulated)
  | none => .unavailable none

/-! ## The sum over all attempts -/

def Numbers.sum (values : List N) : N := values.foldl num.add num.zero

/-- The sum of a field over the reports that carry it. -/
def fieldSum (field : ModelUsage N → Option N) (usages : List (ModelUsage N)) : Option N :=
  match usages.filterMap field with
  | [] => none
  | values => some (num.sum values)

/-- The valid totals of the attempts, each of which reported a usage or not. -/
def validTotals (reports : List (Option (ModelUsage N))) : List N :=
  reports.filterMap fun report => report.bind (usageTotal num)

/-- The usage that the attempts reported together. The total is that of the valid totals; where no
total is valid, the invalid ones are passed on as they were reported. -/
def summedUsage (reports : List (Option (ModelUsage N))) : Option (ModelUsage N) :=
  let usages := reports.filterMap id
  if usages = [] then none
  else some
    { inputTokens := fieldSum num (·.inputTokens) usages
      outputTokens := fieldSum num (·.outputTokens) usages
      totalTokens := match validTotals num reports with
        | [] => fieldSum num (·.totalTokens) usages
        | totals => some (num.sum totals) }

/-- Each attempt reported a valid total. -/
def AllTotals (reports : List (Option (ModelUsage N))) : Prop :=
  ∀ report ∈ reports, (report.bind (usageTotal num)).isSome

instance (reports : List (Option (ModelUsage N))) : Decidable (AllTotals num reports) :=
  inferInstanceAs (Decidable (∀ _ ∈ _, _))

/-- What has to be said of the usage after these attempts. -/
def statedUsage (reports : List (Option (ModelUsage N))) : ModelUsageState N :=
  match summedUsage num reports with
  | some usage =>
    if AllTotals num reports then .available usage else .unavailable (some usage)
  | none => .unavailable none

/-! ## The loop adds up what the attempts reported -/

/-- The variables after these attempts. -/
def accumulated (reports : List (Option (ModelUsage N))) : Accumulated N :=
  reports.foldl (accumulateUsage num) (.start num)

theorem accumulated_concat (reports : List (Option (ModelUsage N)))
    (report : Option (ModelUsage N)) :
    accumulated num (reports ++ [report]) =
      accumulateUsage num (accumulated num reports) report := by
  rw [accumulated, List.foldl_append]
  rfl

theorem sum_concat (values : List N) (value : N) :
    num.sum (values ++ [value]) = num.add (num.sum values) value := by
  rw [Numbers.sum, List.foldl_append]
  rfl

theorem fieldSum_concat (field : ModelUsage N → Option N) (usages : List (ModelUsage N))
    (usage : ModelUsage N) : fieldSum num field (usages ++ [usage]) =
      addUsageField num (fieldSum num field usages) (field usage) := by
  unfold fieldSum
  rw [List.filterMap_append]
  cases hf : field usage with
  | none =>
    simp only [List.filterMap_cons_none hf, List.filterMap_nil, List.append_nil, addUsageField]
  | some value =>
    rw [List.filterMap_cons_some hf, List.filterMap_nil, addUsageField]
    cases hs : usages.filterMap field with
    | nil => rfl
    | cons v vs => exact congrArg some (sum_concat num (v :: vs) value)

/-- The fields as they were reported, added up. -/
def rawUsage (usages : List (ModelUsage N)) : Option (ModelUsage N) :=
  if usages = [] then none
  else some ⟨fieldSum num (·.inputTokens) usages, fieldSum num (·.outputTokens) usages,
    fieldSum num (·.totalTokens) usages⟩

theorem rawUsage_concat (usages : List (ModelUsage N)) (usage : ModelUsage N) :
    rawUsage num (usages ++ [usage]) = some (addUsage num (rawUsage num usages) usage) := by
  have hne : usages ++ [usage] ≠ [] := List.append_ne_nil_of_right_ne_nil _ (List.cons_ne_nil _ _)
  rw [rawUsage, if_neg hne, fieldSum_concat, fieldSum_concat, fieldSum_concat]
  by_cases hu : usages = []
  · subst hu
    rfl
  · rw [rawUsage, if_neg hu]
    rfl

theorem accumulated_usage (reports : List (Option (ModelUsage N))) :
    (accumulated num reports).usage = rawUsage num (reports.filterMap id) := by
  induction reports using List.reverseRecOn with
  | nil => rfl
  | append_singleton reports report ih =>
    rw [accumulated_concat, List.filterMap_append]
    cases report with
    | none => simpa [accumulateUsage] using ih
    | some next =>
      have hu : (accumulateUsage num (accumulated num reports) (some next)).usage =
          some (addUsage num (accumulated num reports).usage next) := rfl
      have hone : [some next].filterMap id = [next] := rfl
      rw [hu, ih, hone, rawUsage_concat]

theorem accumulated_totalTokens (reports : List (Option (ModelUsage N))) :
    (accumulated num reports).totalTokens = num.sum (validTotals num reports) := by
  induction reports using List.reverseRecOn with
  | nil => rfl
  | append_singleton reports report ih =>
    rw [accumulated_concat, validTotals, List.filterMap_append]
    cases report with
    | none => simpa [accumulateUsage, validTotals] using ih
    | some next =>
      cases ht : usageTotal num next with
      | none => simpa [accumulateUsage, validTotals, ht] using ih
      | some total =>
        have hone : [some next].filterMap (fun report => report.bind (usageTotal num)) =
            [total] := by simp [ht]
        rw [hone, sum_concat]
        simp only [accumulateUsage, ht, ih, validTotals]

theorem accumulated_available (reports : List (Option (ModelUsage N))) :
    (accumulated num reports).available = decide (AllTotals num reports) := by
  induction reports using List.reverseRecOn with
  | nil => simp [accumulated, Accumulated.start, AllTotals]
  | append_singleton reports report ih =>
    have happend : AllTotals num (reports ++ [report]) ↔
        AllTotals num reports ∧ (report.bind (usageTotal num)).isSome := by
      unfold AllTotals
      rw [List.forall_mem_append, List.forall_mem_singleton]
    rw [accumulated_concat]
    cases report with
    | none => simp [accumulateUsage, happend]
    | some next => simp [accumulateUsage, ih, happend]

theorem accumulated_known (reports : List (Option (ModelUsage N))) :
    (accumulated num reports).known = !(validTotals num reports).isEmpty := by
  induction reports using List.reverseRecOn with
  | nil => rfl
  | append_singleton reports report ih =>
    rw [accumulated_concat, validTotals, List.filterMap_append]
    cases report with
    | none => simpa [accumulateUsage, validTotals] using ih
    | some next =>
      cases ht : usageTotal num next with
      | none => simpa [accumulateUsage, validTotals, ht] using ih
      | some total => simp [accumulateUsage, ht]

theorem knownUsage_accumulated (reports : List (Option (ModelUsage N))) :
    knownUsage (accumulated num reports) = summedUsage num reports := by
  unfold knownUsage summedUsage
  rw [accumulated_usage, accumulated_totalTokens, accumulated_known, rawUsage]
  by_cases hu : reports.filterMap id = []
  · rw [if_pos hu, if_pos hu, Option.map_none, ite_self]
  · rw [if_neg hu, if_neg hu]
    cases ht : validTotals num reports with
    | nil => rfl
    | cons total totals => rfl

/-- The state after any number of attempts is the one that has to be stated. -/
theorem accumulatedUsageState_accumulated (reports : List (Option (ModelUsage N))) :
    accumulatedUsageState (accumulated num reports) = statedUsage num reports := by
  unfold accumulatedUsageState statedUsage
  rw [knownUsage_accumulated, accumulated_available]
  cases summedUsage num reports with
  | none => rfl
  | some usage => by_cases h : AllTotals num reports <;> simp [h]

/-- An attempt that reported nothing makes the usage unavailable. -/
theorem statedUsage_concat_none (reports : List (Option (ModelUsage N))) :
    statedUsage num (reports ++ [none]) = .unavailable (summedUsage num reports) := by
  have hall : ¬ AllTotals num (reports ++ [none]) := by simp [AllTotals]
  have hsum : summedUsage num (reports ++ [none]) = summedUsage num reports := by
    simp [summedUsage, validTotals]
  unfold statedUsage
  rw [hsum]
  cases summedUsage num reports with
  | none => rfl
  | some usage => simp [hall]

end Qualigence.Gateway
