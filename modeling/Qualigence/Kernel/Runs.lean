import Qualigence.Kernel.Conversation
import Mathlib.Data.List.Induction

/-! # What a run calls

A run is a conversation: its steps execute at most one action each, in the order of the plan, and
none after an execution whose outcome is not ok. What a passed run executed and verified is what its
plan says.
-/

namespace Qualigence.Kernel

open Foundation Foundation.Program Protocol Runner

/-! ## Conversations -/

/-- The step of an ordinal: there is none when the job has no plan. -/
def StepAt (job : AcceptedExecutionJob) (ordinal : ℕ) (step : Option ExecutionPlanStep) : Prop :=
  match job.plan with
  | none => step = none
  | some plan => step.isSome ∧ plan.steps.toList[ordinal]? = step

/-- Logs in which an action is executed only at the end of an exchange about it, by steps of
increasing ordinals below `n`. -/
inductive Conversation (job : AcceptedExecutionJob) : ℕ → RuntimeLog → Prop where
  | nil : Conversation job 0 []
  | quiet {n : ℕ} {log : RuntimeLog} {c : RuntimeCall} (h : Conversation job n log)
    (hc : Quiet c) : Conversation job n (log ++ [c])
  | decided {n : ℕ} {log : RuntimeLog} {ordinal : ℕ} {index : Option ℕ} {action : ProposedAction}
    {reply : Except Thrown Unit} {step : Option ExecutionPlanStep} (h : Conversation job n log)
    (hstep : StepAt job ordinal step) (hm : Matches step action) :
    Conversation job n (log ++ [⟨.append ordinal index (.decision action), reply⟩])
  | verified {n : ℕ} {log : RuntimeLog} {ordinal : ℕ} {claimIds : List String}
    (h : Conversation job n log) :
    Conversation job n (log ++ [⟨.verify ordinal claimIds, .ok .passed⟩])
  | executed {n : ℕ} {log : RuntimeLog} {ordinal stepIndex : ℕ} {proposed : ProposedAction}
    {action : ResolvedAction} {descriptor : Option ExecutionPermitDescriptor}
    {answer : ExecuteAnswer} {step : Option ExecutionPlanStep} (h : Conversation job n log)
    (hn : n ≤ ordinal) (hmax : ordinal < maximumSteps job) (hstep : StepAt job ordinal step)
    (hm : Matches step proposed) :
    Conversation job (ordinal + 1) (log ++ exchange job step ordinal stepIndex proposed action
      descriptor ++ [⟨.execute ordinal action, .ok answer⟩])

section Job

variable {job : AcceptedExecutionJob} {log log' : RuntimeLog} {n : ℕ}

theorem Conversation.after (h : Conversation job n log) (hq : QuietAfter log log') :
    Conversation job n log' := by
  obtain ⟨calls, rfl, hcalls⟩ := hq
  induction calls using List.reverseRecOn with
  | nil => rwa [List.append_nil]
  | append_singleton calls c ih =>
    rw [← List.append_assoc]
    refine .quiet (ih fun d hd => hcalls d (List.mem_append_left _ hd)) (hcalls c ?_)
    exact List.mem_append_right _ List.mem_cons_self

theorem Executed.quiet {ordinal stepIndex : ℕ} {answer : ExecuteAnswer} {tail : RuntimeLog}
    {r : Except Thrown (Option ExecutionCompletion)}
    (h : Executed job ordinal stepIndex answer tail r) : ∀ c ∈ tail, Quiet c := by
  cases h with
  | thrown e hr => exact fun c hc => absurd hc List.not_mem_nil
  | unrecorded outcome e hr =>
    intro c hc
    rw [List.mem_singleton.mp hc]
    exact ⟨rfl, rfl, rfl, rfl⟩
  | recorded outcome hr =>
    intro c hc
    rw [List.mem_singleton.mp hc]
    exact ⟨rfl, rfl, rfl, rfl⟩

/-- A step continues the conversation. -/
theorem Acts.conversation {step : Option ExecutionPlanStep} {ordinal stepIndex : ℕ}
    {r : Except Thrown (Option ExecutionCompletion)} (h : Conversation job n log) (hn : n ≤ ordinal)
    (hmax : ordinal < maximumSteps job) (hstep : StepAt job ordinal step)
    (ha : Acts job step ordinal stepIndex log log' r) :
    ∃ m ≤ ordinal + 1, Conversation job m log' := by
  cases ha with
  | undecided _ _ hq hr => exact ⟨n, by omega, h.after hq⟩
  | decided before _ index decision reply _ hb hm hq hr =>
    exact ⟨n, by omega, (Conversation.decided (h.after hb) hstep hm).after hq⟩
  | executed decision action descriptor answer tail _ hm he =>
    refine ⟨ordinal + 1, le_rfl, ?_⟩
    have hexecuted : Conversation job (ordinal + 1) (log ++ exchange job step ordinal stepIndex
        decision action descriptor ++ [⟨.execute ordinal action, .ok answer⟩]) :=
      .executed h hn hmax hstep hm
    exact hexecuted.after ⟨tail, by simp, he.quiet⟩

theorem execution_of_quiet {c : RuntimeCall} {e : ℕ × ResolvedAction × ExecuteAnswer}
    (hc : Quiet c) (he : execution c = some e) : False := by
  rw [hc.execution] at he
  cases he

theorem execution_of_mem_exchange {step : Option ExecutionPlanStep} {ordinal stepIndex : ℕ}
    {proposed : ProposedAction} {action : ResolvedAction}
    {descriptor : Option ExecutionPermitDescriptor} :
    ∀ c ∈ exchange job step ordinal stepIndex proposed action descriptor, execution c = none := by
  simp only [exchange, List.forall_mem_cons]
  exact ⟨rfl, rfl, rfl, rfl, rfl, rfl, rfl, fun _ h => absurd h List.not_mem_nil⟩

theorem terminal_of_mem_exchange {step : Option ExecutionPlanStep} {ordinal stepIndex : ℕ}
    {proposed : ProposedAction} {action : ResolvedAction}
    {descriptor : Option ExecutionPermitDescriptor} :
    ∀ c ∈ exchange job step ordinal stepIndex proposed action descriptor, terminal c = none := by
  simp only [exchange, List.forall_mem_cons]
  exact ⟨rfl, rfl, rfl, rfl, rfl, rfl, rfl, fun _ h => absurd h List.not_mem_nil⟩

theorem mark_exchange (step : Option ExecutionPlanStep) (ordinal stepIndex : ℕ)
    (proposed : ProposedAction) (action : ResolvedAction)
    (descriptor : Option ExecutionPermitDescriptor) :
    (exchange job step ordinal stepIndex proposed action descriptor).filterMap mark = [] := rfl

/-- The last call of a log that is split somewhere is in the second part, or the split is behind
it. -/
theorem split_concat {α : Type} {log before later : List α} {c d : α}
    (h : log ++ [d] = before ++ c :: later) :
    (∃ later', later = later' ++ [d] ∧ log = before ++ c :: later') ∨
      later = [] ∧ c = d ∧ before = log := by
  induction later using List.reverseRecOn with
  | nil =>
    obtain ⟨hl, hd⟩ := List.append_inj' h rfl
    exact Or.inr ⟨rfl, (List.cons.inj hd).1.symm, hl.symm⟩
  | append_singleton later e _ =>
    have h' : log ++ [d] = (before ++ c :: later) ++ [e] := by
      rw [h, List.append_assoc]
      rfl
    obtain ⟨hl, hd⟩ := List.append_inj' h' rfl
    refine Or.inl ⟨later, ?_, hl⟩
    rw [(List.cons.inj hd).1]

/-- A call in a split log that no call of the second part is, is in the first part. -/
theorem split_append {α : Type} {log part before later : List α} {c : α} (hc : c ∉ part)
    (h : log ++ part = before ++ c :: later) : ∃ later', log = before ++ c :: later' := by
  induction part using List.reverseRecOn generalizing later with
  | nil => exact ⟨later, by rw [← h, List.append_nil]⟩
  | append_singleton part d ih =>
    rw [← List.append_assoc] at h
    rcases split_concat h with ⟨later', -, h'⟩ | ⟨-, rfl, -⟩
    · exact ih (fun hm => hc (List.mem_append_left _ hm)) h'
    · exact absurd (List.mem_append_right _ List.mem_cons_self) hc

/-- Every execution is preceded by the exchange about its action, whose decision is the action of
the step. -/
theorem Conversation.exchanged (h : Conversation job n log) {before later : RuntimeLog}
    {c : RuntimeCall} (hlog : log = before ++ c :: later) {ordinal : ℕ} {action : ResolvedAction}
    {answer : ExecuteAnswer} (hc : execution c = some (ordinal, action, answer)) :
    ∃ earlier step stepIndex proposed descriptor, StepAt job ordinal step ∧
      Matches step proposed ∧
      before = earlier ++ exchange job step ordinal stepIndex proposed action descriptor := by
  induction h generalizing before later c with
  | nil => exact absurd hlog.symm (by simp)
  | quiet h hq ih =>
    rcases split_concat hlog with ⟨later', -, h'⟩ | ⟨-, rfl, -⟩
    · exact ih h' hc
    · exact (execution_of_quiet hq hc).elim
  | decided h hstep hm ih =>
    rcases split_concat hlog with ⟨later', -, h'⟩ | ⟨-, rfl, -⟩
    · exact ih h' hc
    · cases hc
  | verified h ih =>
    rcases split_concat hlog with ⟨later', -, h'⟩ | ⟨-, rfl, -⟩
    · exact ih h' hc
    · cases hc
  | executed h hn hmax hstep hm ih =>
    rcases split_concat hlog with ⟨later', -, h'⟩ | ⟨-, rfl, rfl⟩
    · refine ih (split_append (fun hm => ?_) h').choose_spec hc
      rw [execution_of_mem_exchange c hm] at hc
      cases hc
    · cases hc
      exact ⟨_, _, _, _, _, hstep, hm, rfl⟩

def executedOrdinal (c : RuntimeCall) : Option ℕ := (execution c).map fun e => e.1

theorem executedOrdinal_eq_none {c : RuntimeCall} (h : execution c = none) :
    executedOrdinal c = none := by
  rw [executedOrdinal, h]
  rfl

theorem executedOrdinal_exchange (step : Option ExecutionPlanStep) (ordinal stepIndex : ℕ)
    (proposed : ProposedAction) (action : ResolvedAction)
    (descriptor : Option ExecutionPermitDescriptor) :
    (exchange job step ordinal stepIndex proposed action descriptor).filterMap executedOrdinal =
      [] := rfl

theorem executedOrdinal_execute (ordinal : ℕ) (action : ResolvedAction) (answer : ExecuteAnswer) :
    List.filterMap executedOrdinal [⟨.execute ordinal action, .ok answer⟩] = [ordinal] := rfl

/-- The ordinals of the executions increase, below the step budget. -/
theorem Conversation.ordinals (h : Conversation job n log) :
    (log.filterMap executedOrdinal).Pairwise (· < ·) ∧
      ∀ ordinal ∈ log.filterMap executedOrdinal, ordinal < n ∧ ordinal < maximumSteps job := by
  induction h with
  | nil => exact ⟨List.Pairwise.nil, fun _ h => absurd h List.not_mem_nil⟩
  | quiet h hq ih =>
    have hnone := executedOrdinal_eq_none hq.execution
    rwa [List.filterMap_append, List.filterMap_cons_none hnone, List.filterMap_nil,
      List.append_nil]
  | decided h hstep hm ih =>
    rw [List.filterMap_append, List.filterMap_cons_none rfl, List.filterMap_nil, List.append_nil]
    exact ih
  | verified h ih =>
    rw [List.filterMap_append, List.filterMap_cons_none rfl, List.filterMap_nil, List.append_nil]
    exact ih
  | executed h hn hmax hstep hm ih =>
    rw [List.filterMap_append, List.filterMap_append, executedOrdinal_exchange, List.append_nil,
      executedOrdinal_execute]
    refine ⟨List.pairwise_append.mpr ⟨ih.1, List.pairwise_singleton _ _, ?_⟩, ?_⟩
    · intro o ho o' ho'
      rw [List.mem_singleton.mp ho']
      exact Nat.lt_of_lt_of_le (ih.2 o ho).1 hn
    · intro o ho
      rcases List.mem_append.mp ho with ho | ho
      · exact ⟨by have := (ih.2 o ho).1; omega, (ih.2 o ho).2⟩
      · rw [List.mem_singleton.mp ho]
        exact ⟨by omega, hmax⟩

/-- The decisions that are recorded are the actions of their steps. -/
theorem Conversation.decisions (h : Conversation job n log) {c : RuntimeCall} (hc : c ∈ log)
    {ordinal : ℕ} {action : ProposedAction} (hd : decision c = some (ordinal, action)) :
    ∃ step, StepAt job ordinal step ∧ Matches step action := by
  induction h with
  | nil => exact absurd hc List.not_mem_nil
  | quiet h hq ih =>
    rcases List.mem_append.mp hc with hc | hc
    · exact ih hc
    · rw [List.mem_singleton.mp hc, hq.decision] at hd
      cases hd
  | decided h hstep hm ih =>
    rcases List.mem_append.mp hc with hc | hc
    · exact ih hc
    · rw [List.mem_singleton.mp hc] at hd
      cases hd
      exact ⟨_, hstep, hm⟩
  | verified h ih =>
    rcases List.mem_append.mp hc with hc | hc
    · exact ih hc
    · rw [List.mem_singleton.mp hc] at hd
      cases hd
  | executed h hn hmax hstep hm ih =>
    rcases List.mem_append.mp hc with hc | hc
    · rcases List.mem_append.mp hc with hc | hc
      · exact ih hc
      · simp only [exchange, List.mem_cons, List.not_mem_nil, or_false] at hc
        rcases hc with rfl | rfl | rfl | rfl | rfl | rfl | rfl <;> cases hd
        exact ⟨_, hstep, hm⟩
    · rw [List.mem_singleton.mp hc] at hd
      cases hd

theorem Conversation.unfinished (h : Conversation job n log) :
    ∀ c ∈ log, terminal c = none := by
  induction h with
  | nil => exact fun c hc => absurd hc List.not_mem_nil
  | quiet h hq ih =>
    intro c hc
    rcases List.mem_append.mp hc with hc | hc
    · exact ih c hc
    · rw [List.mem_singleton.mp hc]
      exact hq.terminal
  | decided h hstep hm ih =>
    intro c hc
    rcases List.mem_append.mp hc with hc | hc
    · exact ih c hc
    · rw [List.mem_singleton.mp hc]
      rfl
  | verified h ih =>
    intro c hc
    rcases List.mem_append.mp hc with hc | hc
    · exact ih c hc
    · rw [List.mem_singleton.mp hc]
      rfl
  | executed h hn hmax hstep hm ih =>
    intro c hc
    rcases List.mem_append.mp hc with hc | hc
    · rcases List.mem_append.mp hc with hc | hc
      · exact ih c hc
      · exact terminal_of_mem_exchange c hc
    · rw [List.mem_singleton.mp hc]
      rfl

/-! ## Steps of a run -/

/-- Every execution had an ok outcome. -/
def AllOk (log : RuntimeLog) : Prop :=
  ∀ c ∈ log, ∀ e ∈ execution c, e.2.2.result = .ok .ok

theorem AllOk.append {calls : RuntimeLog} (h : AllOk log) (h' : AllOk calls) :
    AllOk (log ++ calls) := by
  intro c hc
  exact (List.mem_append.mp hc).elim (h c) (h' c)

theorem AllOk.after (h : AllOk log) (hq : QuietAfter log log') : AllOk log' := by
  obtain ⟨calls, rfl, hcalls⟩ := hq
  refine h.append fun c hc e he => ?_
  exact (execution_of_quiet (hcalls c hc) he).elim

theorem marks_after (hq : QuietAfter log log') : log'.filterMap mark = log.filterMap mark := by
  obtain ⟨calls, rfl, hcalls⟩ := hq
  rw [List.filterMap_append, List.filterMap_eq_nil_iff.mpr fun c hc => (hcalls c hc).mark,
    List.append_nil]

/-- A run that goes on: all its executions were ok, and it has shown what its steps say. -/
structure Going (job : AcceptedExecutionJob) (n : ℕ) (marks : List Mark) (log : RuntimeLog) :
    Prop where
  conversation : ∃ m ≤ n, Conversation job m log
  ok : AllOk log
  marks : log.filterMap mark = marks

theorem Going.after {marks : List Mark} (h : Going job n marks log) (hq : QuietAfter log log') :
    Going job n marks log' := by
  obtain ⟨m, hm, hc⟩ := h.conversation
  exact ⟨⟨m, hm, hc.after hq⟩, h.ok.after hq, (marks_after hq).trans h.marks⟩

theorem Going.mono {marks : List Mark} {m : ℕ} (h : Going job n marks log) (hn : n ≤ m) :
    Going job m marks log :=
  ⟨h.conversation.imp fun _ hc => ⟨hc.1.trans hn, hc.2⟩, h.ok, h.marks⟩

/-- The last execution of a log was not ok, and decided how the run ends. -/
inductive Failed (job : AcceptedExecutionJob) (log : RuntimeLog)
    (r : Except Thrown ExecutionCompletion) : Prop where
  | mk (before tail : RuntimeLog) (ordinal stepIndex : ℕ) (action : ResolvedAction)
    (answer : ExecuteAnswer) (hlog : log = before ++ ⟨.execute ordinal action, .ok answer⟩ :: tail)
    (hok : AllOk before) (hanswer : answer.result ≠ .ok .ok)
    (he : Executed job ordinal stepIndex answer tail (r.map some)) : Failed job log r

/-- A run whose steps are over, or that was ended in one. -/
structure Finished (job : AcceptedExecutionJob) (log : RuntimeLog)
    (r : Except Thrown ExecutionCompletion) : Prop where
  conversation : ∃ m, Conversation job m log
  ok : AllOk log ∨ Failed job log r

theorem Going.finished {marks : List Mark} (h : Going job n marks log)
    (r : Except Thrown ExecutionCompletion) : Finished job log r :=
  ⟨h.conversation.imp fun _ hc => hc.2, .inl h.ok⟩

/-- What a part of a step leaves: the run goes on, or it is finished without having passed. -/
def Continued (job : AcceptedExecutionJob) (n : ℕ) (marks : List Mark) (log : RuntimeLog) :
    Except Thrown (Option ExecutionCompletion) → Prop
  | .error e => Finished job log (.error e)
  | .ok (some c) => Finished job log (.ok c) ∧ c.status ≠ .passed
  | .ok none => Going job n marks log

theorem completionOfOutcome_failed (job : AcceptedExecutionJob) (dispatched : Bool) (errorCode : Option String) :
    ∃ c, completionOfOutcome job dispatched (.failed errorCode) = some c ∧ c.status ≠ .passed := by
  by_cases h : dispatched ∨ errorCode = some "ActionOutcomeUnknown"
  · exact ⟨_, if_pos h, nofun⟩
  · exact ⟨_, if_neg h, nofun⟩

/-- A step that acts goes on with its mark, or finishes the run without having passed. -/
theorem Acts.finished {marks : List Mark} {step : Option ExecutionPlanStep} {ordinal stepIndex : ℕ}
    {r : Except Thrown (Option ExecutionCompletion)} (h : Going job n marks log)
    (hn : n ≤ ordinal) (hmax : ordinal < maximumSteps job) (hstep : StepAt job ordinal step)
    (ha : Acts job step ordinal stepIndex log log' r) :
    Continued job (ordinal + 1) (marks ++ [.acted]) log' r := by
  obtain ⟨m, hm, hc⟩ := h.conversation
  obtain ⟨m', hm', hc'⟩ := ha.conversation hc (hm.trans hn) hmax hstep
  cases ha with
  | undecided _ _ hq hr =>
    obtain ⟨e, rfl⟩ := hr
    exact ⟨⟨m', hc'⟩, .inl (h.ok.after hq)⟩
  | decided before _ index decision reply _ hb hmatch hq hr =>
    have hdecision : AllOk [⟨.append ordinal index (.decision decision), reply⟩] := by
      intro c hc e he
      rw [List.mem_singleton.mp hc] at he
      cases he
    have hok := ((h.ok.after hb).append hdecision).after hq
    rcases hr with ⟨e, rfl⟩ | rfl
    · exact ⟨⟨m', hc'⟩, .inl hok⟩
    · exact ⟨⟨⟨m', hc'⟩, .inl hok⟩, nofun⟩
  | executed decision action descriptor answer tail _ hmatch he =>
    have hbefore : AllOk (log ++ exchange job step ordinal stepIndex decision action descriptor) :=
      h.ok.append fun c hc e hex => by
        rw [execution_of_mem_exchange c hc] at hex
        cases hex
    have hfailed (r' : Except Thrown ExecutionCompletion)
        (he : Executed job ordinal stepIndex answer tail (r'.map some))
        (hne : answer.result ≠ .ok .ok) :
        Failed job (log ++ exchange job step ordinal stepIndex decision action descriptor ++
          ⟨.execute ordinal action, .ok answer⟩ :: tail) r' :=
      .mk _ tail ordinal stepIndex action answer rfl hbefore hne he
    have hgoing (hanswer : answer.result = .ok .ok) :
        AllOk (log ++ exchange job step ordinal stepIndex decision action descriptor ++
          ⟨.execute ordinal action, .ok answer⟩ :: tail) := by
      refine hbefore.append fun c hc e hex => ?_
      rcases List.mem_cons.mp hc with rfl | hc
      · cases hex
        exact hanswer
      · exact (execution_of_quiet (he.quiet c hc) hex).elim
    cases he with
    | thrown e hanswer =>
      exact ⟨⟨m', hc'⟩, .inr (hfailed (.error _) (.thrown e hanswer) (by rw [hanswer]; nofun))⟩
    | unrecorded outcome e hanswer =>
      cases outcome with
      | ok => exact ⟨⟨m', hc'⟩, .inl (hgoing hanswer)⟩
      | failed code =>
        exact ⟨⟨m', hc'⟩, .inr (hfailed (.error _) (.unrecorded _ e hanswer)
          (by rw [hanswer]; nofun))⟩
    | recorded outcome hanswer =>
      cases outcome with
      | ok =>
        refine ⟨⟨m', hm', hc'⟩, hgoing hanswer, ?_⟩
        have htail : mark ⟨.append ordinal (traceIndex job stepIndex) (.actionExecuted .ok),
          .ok ()⟩ = none := rfl
        rw [List.filterMap_append, List.filterMap_append, mark_exchange, List.append_nil, h.marks]
        rfl
      | failed code =>
        obtain ⟨c, hcompletion, hstatus⟩ := completionOfOutcome_failed job
          answer.dispatched code
        have hrecorded : Executed job ordinal stepIndex answer
            [⟨.append ordinal (traceIndex job stepIndex) (.actionExecuted (.failed code)), .ok ()⟩]
            (.ok (completionOfOutcome job answer.dispatched (.failed code))) :=
          .recorded (.failed code) hanswer
        rw [hcompletion] at hrecorded ⊢
        exact ⟨⟨⟨m', hc'⟩, .inr (hfailed (.ok c) hrecorded (by rw [hanswer]; nofun))⟩, hstatus⟩

/-- A verification goes on with its mark, or finishes the run without having passed. -/
theorem Verifies.finished {marks : List Mark} {ordinal : ℕ} {claimIds : List String}
    {r : Except Thrown (Option ExecutionCompletion)} (h : Going job n marks log)
    (hv : Verifies job ordinal claimIds log log' r) :
    Continued job n (marks ++ [.verified claimIds]) log' r := by
  cases hv with
  | unverified hq hr =>
    rcases hr with ⟨e, rfl⟩ | ⟨f, rfl⟩
    · exact (h.after hq).finished _
    · exact ⟨(h.after hq).finished _, nofun⟩
  | passed hq hr =>
    have hverified : Going job n (marks ++ [.verified claimIds])
        (log ++ [⟨.verify ordinal claimIds, .ok .passed⟩]) := by
      obtain ⟨m, hm, hc⟩ := h.conversation
      refine ⟨⟨m, hm, ?_⟩, h.ok.append ?_, ?_⟩
      · exact hc.verified
      · intro c hc e he
        rw [List.mem_singleton.mp hc] at he
        cases he
      · rw [List.filterMap_append, h.marks]
        rfl
    rcases hr with ⟨e, rfl⟩ | rfl
    · exact (hverified.after hq).finished _
    · exact hverified.after hq

/-! ## Runs -/

/-- What a step has to show when the run goes on after it. -/
def stepMark : ExecutionPlanStep → Mark
  | .verify _ claimIds => .verified claimIds.toList
  | _ => .acted

def isVerify (step : ExecutionPlanStep) : Bool := step.actionKind.isNone

/-- What a passed run of a plan has to show. -/
def planMarks (plan : ExecutionJobPlanSnapshot) : List Mark :=
  plan.steps.toList.map stepMark ++
    if plan.steps.toList.any isVerify then [] else [.verified plan.expectedClaimIds.toList]

/-- What one step leaves: progress, or a run that is finished without having passed. -/
def Stepped (job : AcceptedExecutionJob) (n : ℕ) (marks : List Mark) (verified : Bool)
    (log : RuntimeLog) : Except Thrown (ExecutionCompletion ⊕ Progress) → Prop
  | .error e => Finished job log (.error e)
  | .ok (.inl c) => Finished job log (.ok c) ∧ c.status ≠ .passed
  | .ok (.inr progress) =>
    Going job n marks log ∧ progress.hasExplicitVerification = verified

/-- How a run goes on behind a step. -/
def wentOn (progress : Progress) (observation : List String) (stepIndex : ℕ) :
    Option ExecutionCompletion → Runtime (ExecutionCompletion ⊕ Progress)
  | some completion => Program.pure (.inl completion)
  | none => Program.pure (.inr ⟨some (progress.first.getD observation), stepIndex,
      progress.hasExplicitVerification⟩)

theorem logs_runStep {marks : List Mark} (progress : Progress) (ordinal : ℕ)
    (step : ExecutionPlanStep) (hstep : StepAt job ordinal (some step))
    (h : Going job ordinal marks log) :
    Logs (Stepped job (ordinal + 1) (marks ++ [stepMark step])
      (progress.hasExplicitVerification || isVerify step)) log (runStep job progress ordinal step) := by
  refine watched_bind _ (logs_beforeStep ordinal _) ?_ ?_
  swap
  · rintro log' e ⟨hq, -⟩
    exact (h.after hq).finished _
  rintro log' ⟨⟩ ⟨hq, hmax⟩
  replace hmax := hmax rfl
  replace h := h.after hq
  refine watched_bind _ (logs_capture ordinal _) ?_ fun log' e hq => (h.after hq).finished _
  intro log' observation hq
  replace h := h.after hq
  have hacts : isVerify step = false → stepMark step = .acted →
      Logs (Stepped job (ordinal + 1) (marks ++ [stepMark step])
        (progress.hasExplicitVerification || isVerify step)) log'
        ((executeStep job (some step) ordinal (step.stepIndex.getD ordinal)).bind
          (wentOn progress observation (step.stepIndex.getD ordinal))) := by
    intro hverify hmark
    rw [hverify, hmark, Bool.or_false]
    refine watched_bind _ (logs_executeStep (some step) ordinal _) ?_ ?_
    · intro log'' completion ha
      have hf := ha.finished h le_rfl hmax hstep
      cases completion with
      | none => exact ⟨hf, rfl⟩
      | some c => exact hf
    · intro log'' e ha
      exact ha.finished h le_rfl hmax hstep
  cases step with
  | verify index claimIds =>
    refine watched_bind _ (logs_verify ordinal _ _ _ _) ?_ ?_
    · intro log'' completion hv
      have hf := hv.finished h
      cases completion with
      | none => exact ⟨Going.mono hf (Nat.le_succ ordinal), (Bool.or_true _).symm⟩
      | some c => exact hf
    · intro log'' e hv
      exact hv.finished h
  | navigate index path => exact hacts rfl rfl
  | click index target => exact hacts rfl rfl
  | input index target valueRef => exact hacts rfl rfl
  | select index target valueRef => exact hacts rfl rfl
  | scroll index target direction amount => exact hacts rfl rfl

/-- A finished run, with what it has to show when it passed. -/
structure Completed (job : AcceptedExecutionJob) (log : RuntimeLog)
    (r : Except Thrown ExecutionCompletion) : Prop extends Finished job log r where
  passed : ∀ c, r = .ok c → c.status = .passed → ∀ plan ∈ job.plan,
    log.filterMap mark = planMarks plan

theorem Finished.completed {r : Except Thrown ExecutionCompletion} (h : Finished job log r)
    (hr : ∀ c, r = .ok c → c.status ≠ .passed) : Completed job log r :=
  ⟨h, fun c hc hp => absurd hp (hr c hc)⟩

theorem logs_finishSteps {plan : ExecutionJobPlanSnapshot} (hplan : job.plan = some plan)
    (progress : Progress) (ordinal : ℕ)
    (hverify : progress.hasExplicitVerification = plan.steps.toList.any isVerify)
    (h : Going job ordinal (plan.steps.toList.map stepMark) log) :
    Logs (Completed job) log (finishSteps job plan progress ordinal) := by
  have hshown : ∀ {log' : RuntimeLog} {n : ℕ} (c : ExecutionCompletion),
      Going job n (planMarks plan) log' → Completed job log' (.ok c) := by
    intro log' n c hg
    refine ⟨hg.finished _, fun _ _ _ plan' hplan' => ?_⟩
    obtain rfl : plan = plan' := Option.some.inj (hplan.symm.trans hplan')
    exact hg.marks
  have hmarks : planMarks plan = plan.steps.toList.map stepMark ++
      if progress.hasExplicitVerification then []
        else [.verified plan.expectedClaimIds.toList] := by
    rw [hverify]
    rfl
  unfold finishSteps
  cases hexplicit : progress.hasExplicitVerification with
  | true =>
    rw [hexplicit, if_pos rfl, List.append_nil] at hmarks
    exact hshown _ (hmarks ▸ h)
  | false =>
    rw [hexplicit, if_neg Bool.false_ne_true] at hmarks
    refine watched_bind _ (logs_capture ordinal _) ?_ ?_
    swap
    · exact fun log' e hq => ((h.after hq).finished _).completed nofun
    intro log' observation hq
    refine watched_bind _ (logs_verify ordinal _ _ _ _) ?_ ?_
    · intro log'' completion hv
      have hf := hv.finished (h.after hq)
      cases completion with
      | none => exact hshown _ (hmarks ▸ hf)
      | some c => exact hf.1.completed fun c' hc' => Except.ok.inj hc' ▸ hf.2
    · exact fun log'' e hv => (hv.finished (h.after hq)).completed nofun

/-- By induction on the steps that are left. -/
theorem logs_runSteps {plan : ExecutionJobPlanSnapshot} (hplan : job.plan = some plan)
    (steps done : List ExecutionPlanStep) (hsteps : plan.steps.toList = done ++ steps)
    (progress : Progress) (hverify : progress.hasExplicitVerification = done.any isVerify)
    (h : Going job done.length (done.map stepMark) log) :
    Logs (fun log' r => ∃ a, r = .ok a ∧ Completed job log' a.2) log
      (runSteps job plan progress done.length steps) := by
  induction steps generalizing done progress log with
  | nil =>
    rw [List.append_nil] at hsteps
    rw [← hsteps] at h hverify ⊢
    exact logs_attempt_bind _ (logs_finishSteps hplan progress _ hverify h)
      fun log' r hr => ⟨_, rfl, hr⟩
  | cons step steps ih =>
    have hstep : StepAt job done.length (some step) := by
      rw [StepAt, hplan]
      refine ⟨rfl, ?_⟩
      rw [hsteps, List.getElem?_append_right le_rfl, Nat.sub_self]
      rfl
    refine logs_attempt_bind _ (logs_runStep progress done.length step hstep h) ?_
    intro log' a ha
    match a, ha with
    | .error e, ha => exact ⟨_, rfl, Finished.completed ha nofun⟩
    | .ok (.inl c), ha =>
      exact ⟨_, rfl, ha.1.completed fun c' hc' => Except.ok.inj hc' ▸ ha.2⟩
    | .ok (.inr progress'), ha =>
      have hdone : done.length + 1 = (done ++ [step]).length := by simp
      obtain ⟨hgoing, hexplicit⟩ := ha
      change Logs _ log' (runSteps job plan progress' (done.length + 1) steps)
      rw [hdone] at hgoing ⊢
      refine ih (done ++ [step]) (by rw [hsteps, List.append_assoc]; rfl) progress' ?_ ?_
      · rw [hexplicit, hverify, List.any_append]
        simp
      · rw [List.map_append]
        exact hgoing

theorem logs_runObjectiveOnly (hplan : job.plan = none) (h : Going job 0 [] log) :
    Logs (Completed job) log (runObjectiveOnly job) := by
  have hcompleted : ∀ {log' : RuntimeLog} {r : Except Thrown ExecutionCompletion},
      Finished job log' r → Completed job log' r := by
    intro log' r hf
    refine ⟨hf, fun c _ _ plan hp => ?_⟩
    rw [hplan] at hp
    cases hp
  have hstep : StepAt job 0 none := by
    rw [StepAt, hplan]
  refine watched_bind _ (logs_beforeStep 0 0) ?_ ?_
  swap
  · exact fun log' e hq => hcompleted ((h.after hq.1).finished _)
  rintro log' ⟨⟩ ⟨hq, hmax⟩
  refine watched_bind _ (logs_capture 0 0) ?_ ?_
  swap
  · exact fun log'' e hq' => hcompleted ((h.after (hq.trans hq')).finished _)
  intro log'' before hq'
  replace h := h.after (hq.trans hq')
  refine watched_bind _ (logs_executeStep none 0 0) ?_ ?_
  swap
  · exact fun log₁ e ha => hcompleted (ha.finished h le_rfl (hmax rfl) hstep)
  intro log₁ completion ha
  have hf := ha.finished h le_rfl (hmax rfl) hstep
  cases completion with
  | some c => exact hcompleted hf.1
  | none =>
    replace hf : Going job 1 [.acted] log₁ := hf
    refine watched_bind _ (logs_capture 0 0) ?_ ?_
    swap
    · exact fun log₂ e hq => hcompleted ((hf.after hq).finished _)
    intro log₂ after hq
    refine watched_bind _ (logs_verify 0 0 [] before after) ?_ ?_
    · intro log₃ completion hv
      have hf' := hv.finished (hf.after hq)
      cases completion with
      | none => exact hcompleted (Going.finished hf' _)
      | some c => exact hcompleted hf'.1
    · exact fun log₃ e hv => hcompleted (hv.finished (hf.after hq))

theorem logs_runUntilCompletion (h : Going job 0 [] log) :
    Logs (fun log' r => ∃ a, r = .ok a ∧ Completed job log' a.2) log (runUntilCompletion job) := by
  unfold runUntilCompletion
  cases hplan : job.plan with
  | none =>
    exact logs_attempt_bind _ (logs_runObjectiveOnly hplan h) fun log' r hr => ⟨_, rfl, hr⟩
  | some plan => exact logs_runSteps hplan plan.steps.toList [] rfl ⟨none, 0, false⟩ rfl h

/-- The completion that a log leads to, before the last event is recorded. -/
def LeadsTo (job : AcceptedExecutionJob) (log : RuntimeLog) (c : ExecutionCompletion) : Prop :=
  Completed job log (.ok c) ∨
    ∃ e, Completed job log (.error e) ∧ completionFromError job e = some c

/-- A run ends without a last event, or with the event of its completion. -/
inductive RunLog (job : AcceptedExecutionJob) :
    RuntimeLog → Except Thrown ExecutionCompletion → Prop where
  | refused (e : Thrown) : RunLog job [⟨.beginBudget, .error e⟩] (.error e)
  | thrown (log : RuntimeLog) (e : Thrown) (h : Completed job log (.error e))
    (he : completionFromError job e = none) : RunLog job log (.error e)
  | unrecorded (log : RuntimeLog) (c : ExecutionCompletion) (ordinal : ℕ) (index : Option ℕ)
    (e : Thrown) (h : LeadsTo job log c) : RunLog job
      (log ++ [⟨.append ordinal index (.runCompleted (terminalPayload c.status)), .error e⟩])
      (.error .other)
  | recorded (log : RuntimeLog) (c : ExecutionCompletion) (ordinal : ℕ) (index : Option ℕ)
    (h : LeadsTo job log c) : RunLog job
      (log ++ [⟨.append ordinal index (.runCompleted (terminalPayload c.status)), .ok ()⟩]) (.ok c)

theorem logs_recordTerminal (stepIndex : ℕ) (c : ExecutionCompletion) (h : LeadsTo job log c) :
    Logs (RunLog job) log (recordTerminal job stepIndex c) := by
  refine ⟨trivial, fun r => ?_⟩
  cases r with
  | ok a => exact .recorded log c _ _ h
  | error e => exact .unrecorded log c _ _ e h

/-- Whatever the dependencies do, the calls of a run are as described. -/
theorem logs_run (job : AcceptedExecutionJob) : Logs (RunLog job) [] (run job) := by
  refine logs_step (fun e => .refused e) fun _ => ?_
  have hbegun : Going job 0 [] [⟨.beginBudget, .ok ()⟩] := by
    refine ⟨⟨0, le_rfl, .quiet .nil ⟨rfl, rfl, rfl, rfl⟩⟩, ?_, rfl⟩
    intro c hc e he
    rw [List.mem_singleton.mp hc] at he
    cases he
  refine watched_bind _ (logs_runUntilCompletion hbegun) ?_ (by rintro _ _ ⟨_, ⟨⟩, _⟩)
  rintro log _ ⟨⟨stepIndex, result⟩, ⟨⟩, h⟩
  cases result with
  | ok c => exact logs_recordTerminal stepIndex c (.inl h)
  | error e =>
    dsimp only
    cases he : completionFromError job e with
    | none => exact .thrown log e h he
    | some c => exact logs_recordTerminal stepIndex c (.inr ⟨e, h, he⟩)

end Job

end Qualigence.Kernel
