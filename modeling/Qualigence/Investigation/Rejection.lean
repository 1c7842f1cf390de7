import Qualigence.Investigation.Overrun

/-! # Refused commands

A command is checked before the case is touched, with one exception: the amounts that an attempt
reports are checked by the ledger, behind the attempt that was appended and the count that was
raised. A refused amount leaves the attempt in the case.
-/

namespace Qualigence.Investigation

open InvestigationBudgetLedger

namespace InvestigationCase

variable {c : InvestigationCase}

/-- A command that is refused leaves every part of the case as it was. -/
def Unharmed (c : InvestigationCase) (command : InvestigationCommand) : Prop :=
  ∀ error, (c.apply command).1 = .error error → c.next command = c

/-- A body of a transaction that leaves the case as it was when it throws. -/
def Careful (c : InvestigationCase) (body : Outcome) : Prop :=
  ∀ error, body.1 = .error error → body.2 = c

theorem careful_commit (c' : InvestigationCase) (base : InvestigationCommandBase)
    (toStatus : InvestigationStatus) (extras : TransitionExtras) :
    c.Careful (c'.commit base toStatus extras) := by
  intro error he
  simp [commit] at he

theorem careful_transact {base : InvestigationCommandBase} {legal : List InvestigationStatus}
    {toStatus : InvestigationStatus} {body : Outcome} (h : c.Careful body) :
    c.Careful (c.transact base legal toStatus body) := by
  rcases transact_cases (c := c) base legal toStatus body with ⟨result, hres, -⟩ | ⟨-, -, -, hres⟩
  · intro error _
    rw [hres]
  · rw [hres]
    exact h

theorem careful_confirm (base : InvestigationCommandBase) (draft : BugEpisodeDraft) :
    c.Careful (c.confirm base draft) := by
  apply careful_transact
  dsimp only
  split
  · exact fun _ _ => rfl
  split
  · exact fun _ _ => rfl
  split
  · exact fun _ _ => rfl
  · exact careful_commit _ base _ _

theorem careful_startReproduction (base : InvestigationCommandBase) :
    c.Careful (c.startReproduction base) := by
  apply careful_transact
  split
  · exact careful_commit _ base _ _
  · exact careful_commit _ base _ _

/-- With amounts that are valid, the ledger refuses no attempt. -/
theorem careful_appendAttempt {base : InvestigationCommandBase} {draft : ReproductionAttemptDraft}
    (h : ValidConsumption draft.budgetConsumed) : c.Careful (c.appendAttempt base draft) := by
  apply careful_transact
  have hok : (consumeAttempt c.usage (c.stamp draft)).1 = .ok () := consumeAttempt_of_valid h
  simp only [hok]
  split
  · exact careful_commit _ base _ _
  · exact careful_commit _ base _ _

theorem error_of_invalid {consumed : ReportedUsage} :
    ∀ {dimensions : List BudgetDimension} {usage : InvestigationBudgetUsage ℚ},
      ¬ (∀ dimension ∈ dimensions, ∃ amount, consumed.get dimension = some amount ∧ 0 ≤ amount) →
      ∃ dimension, (consumeResources consumed dimensions usage).1 = .error dimension
  | [], _, h => absurd (fun _ hd => absurd hd List.not_mem_nil) h
  | d :: dimensions, usage, h => by
    rw [consumeResources]
    cases hd : nonNegative (consumed.get d) d with
    | error refused => exact ⟨refused, rfl⟩
    | ok amount =>
      refine error_of_invalid fun hrest => h fun d' hd' => ?_
      rcases List.mem_cons.mp hd' with rfl | hd'
      · unfold nonNegative at hd
        split at hd
        · cases hd
        · next reported hreported =>
          split at hd
          · cases hd
          · next hn => exact ⟨reported, hreported, not_lt.mp hn⟩
      · exact hrest d' hd'

/-- An attempt that is taken with an amount that is refused stays in the case. -/
theorem harmed_of_invalid {base : InvestigationCommandBase} {draft : ReproductionAttemptDraft}
    (ht : c.Taken (.appendAttempt base draft)) (h : ¬ ValidConsumption draft.budgetConsumed) :
    ¬ c.Unharmed (.appendAttempt base draft) := by
  obtain ⟨hr, he, hs⟩ := ht
  obtain ⟨dimension, hd⟩ : ∃ dimension,
      (consumeAttempt c.usage (c.stamp draft)).1 = .error dimension := error_of_invalid h
  have hres : c.apply (.appendAttempt base draft) =
      (.error (.invalidAmount dimension), c.appended draft) := by
    rcases transact_cases (c := c) base [.reproducing] .reproducing _ with
      ⟨result, -, hn⟩ | ⟨-, -, -, hbody⟩
    · exact absurd ⟨List.mem_singleton.mpr hs, he⟩ (hn hr).2
    · have ha : c.apply (.appendAttempt base draft) = _ := hbody
      simpa only [hd] using ha
  intro hu
  have hsame := hu (.invalidAmount dimension) (by rw [hres])
  rw [next, hres] at hsame
  have hlen := congrArg (fun c : InvestigationCase => c.attempts.length) hsame
  simp [appended] at hlen

/-- A refused command leaves the case as it was, unless it is an attempt in a legal status and
version that reports an amount which is refused. -/
theorem unharmed_iff {command : InvestigationCommand} : c.Unharmed command ↔ c.Valid command := by
  cases command with
  | appendAttempt base draft =>
    constructor
    · intro hu ht
      by_contra hn
      exact harmed_of_invalid ht hn hu
    · intro hv error he
      rcases transact_cases (c := c) base [.reproducing] .reproducing _ with
        ⟨result, hres, -⟩ | ⟨hr, hl, hver, -⟩
      · have ha : c.apply (.appendAttempt base draft) = (result, c) := hres
        rw [next, ha]
      · exact careful_appendAttempt (hv ⟨hr, hver, List.mem_singleton.mp hl⟩) error he
  | startReproduction base => exact ⟨fun _ => trivial, fun _ => careful_startReproduction base⟩
  | confirm base draft => exact ⟨fun _ => trivial, fun _ => careful_confirm base draft⟩
  | escalateToHuman base draft =>
    exact ⟨fun _ => trivial, fun _ => careful_transact (careful_commit _ base _ _)⟩
  | startInvestigation base =>
    exact ⟨fun _ => trivial, fun _ => careful_transact (careful_commit _ base _ _)⟩
  | refute base reason =>
    exact ⟨fun _ => trivial, fun _ => careful_transact (careful_commit _ base _ _)⟩
  | markFlaky base reason =>
    exact ⟨fun _ => trivial, fun _ => careful_transact (careful_commit _ base _ _)⟩
  | resolve base disposition =>
    exact ⟨fun _ => trivial, fun _ => careful_transact (careful_commit _ base _ _)⟩
  | verifyRegression base =>
    exact ⟨fun _ => trivial, fun _ => careful_transact (careful_commit _ base _ _)⟩

/-- In a history of commands from the opening of a case, every refused command leaves the case as it
was exactly when no attempt that is taken reports an amount which is refused. -/
theorem refused_commands_change_nothing (caseId findingId projectId : String)
    (budget : InvestigationBudget) (commands : List InvestigationCommand) :
    Foundation.Meets next Unharmed (opened caseId findingId projectId budget) commands ↔
      Foundation.Meets next Valid (opened caseId findingId projectId budget) commands := by
  constructor
  · exact Foundation.Meets.imp (I := fun _ => True)
      (fun _ _ _ h => ⟨unharmed_iff.mp h, trivial⟩) trivial
  · exact Foundation.Meets.imp (I := fun _ => True)
      (fun _ _ _ h => ⟨unharmed_iff.mpr h, trivial⟩) trivial

/-- An attempt that reports a negative amount is refused, and counted as an attempt all the same. -/
theorem refused_attempt_is_kept :
    ((started 2).apply (.appendAttempt ⟨3, "c"⟩ (sampleAttempt .reproduced (-1)))).1 =
      .error (.invalidAmount .wallClockMs) ∧
    ((started 2).next (.appendAttempt ⟨3, "c"⟩ (sampleAttempt .reproduced (-1)))).attempts.length =
      (started 2).attempts.length + 1 ∧
    ((started 2).next
      (.appendAttempt ⟨3, "c"⟩ (sampleAttempt .reproduced (-1)))).usage.reproductionAttempts =
      (started 2).usage.reproductionAttempts + 1 ∧
    ¬ Foundation.Meets next Unharmed (opened "case" "finding" "project" (sampleBudget 2))
      [.startInvestigation ⟨1, "a"⟩, .startReproduction ⟨2, "b"⟩,
        .appendAttempt ⟨3, "c"⟩ (sampleAttempt .reproduced (-1))] := by
  refine ⟨by decide +kernel, by decide +kernel, by decide +kernel, ?_⟩
  rintro ⟨-, -, hu, -⟩
  have hsame := hu (.invalidAmount .wallClockMs) (by decide +kernel)
  have hlen := congrArg (fun c : InvestigationCase => c.attempts.length) hsame
  exact absurd hlen (by decide +kernel)

end InvestigationCase

end Qualigence.Investigation
