import Qualigence.Kernel.Runs

/-! # The laws of a run

Execution needs authority, an outcome that is not known is reported as such when it can be recorded,
and what a passed run has verified is decided by its plan.
-/

namespace Qualigence.Kernel

open Foundation Foundation.Program Protocol Runner

variable {job : AcceptedExecutionJob} {log : RuntimeLog}

/-! ## Authority and order -/

/-- The kind of the action that a decision proposes. -/
def decidedKind : ProposedAction → ActionKind
  | .navigate _ => .navigate
  | .click => .click
  | .input _ => .input
  | .select _ => .select
  | .scroll .. => .scroll
  | .window => .window

theorem kind_of_matches {step : ExecutionPlanStep} {action : ProposedAction}
    (h : Matches (some step) action) : step.actionKind = some (decidedKind action) := by
  have hm := h step rfl
  cases action <;> cases step <;> first | rfl | cases hm

theorem RunLog.of_ok {c : ExecutionCompletion} (h : RunLog job log (.ok c)) :
    ∃ earlier ordinal index, LeadsTo job earlier c ∧ log = earlier ++
      [⟨.append ordinal index (.runCompleted (terminalPayload c.status)), .ok ()⟩] := by
  cases h with
  | recorded earlier _ ordinal index h => exact ⟨earlier, ordinal, index, h, rfl⟩

theorem LeadsTo.conversation {c : ExecutionCompletion} (h : LeadsTo job log c) :
    ∃ n, Conversation job n log := by
  rcases h with h | ⟨e, h, -⟩ <;> exact h.conversation

theorem RunLog.conversation {r : Except Thrown ExecutionCompletion} (h : RunLog job log r) :
    ∃ n before later, log = before ++ later ∧ Conversation job n before ∧
      (∀ c ∈ later, execution c = none ∧ decision c = none) := by
  have hnone : ∀ (ordinal : ℕ) (index : Option ℕ) (payload : TerminalPayload)
      (reply : Except Thrown Unit), ∀ c ∈ ([⟨.append ordinal index (.runCompleted payload), reply⟩] :
        RuntimeLog), execution c = none ∧ decision c = none := by
    intro ordinal index payload reply c hc
    rw [List.mem_singleton.mp hc]
    exact ⟨rfl, rfl⟩
  cases h with
  | refused e => exact ⟨0, [], _, rfl, .nil, fun c hc => by
      rw [List.mem_singleton.mp hc]; exact ⟨rfl, rfl⟩⟩
  | thrown _ e h he =>
    obtain ⟨n, hn⟩ := h.conversation
    exact ⟨n, log, [], (List.append_nil log).symm, hn, fun c hc => absurd hc List.not_mem_nil⟩
  | unrecorded log c ordinal index e h =>
    obtain ⟨n, hn⟩ := h.conversation
    exact ⟨n, log, _, rfl, hn, hnone ordinal index _ _⟩
  | recorded log c ordinal index h =>
    obtain ⟨n, hn⟩ := h.conversation
    exact ⟨n, log, _, rfl, hn, hnone ordinal index _ _⟩

/-- Whatever the dependencies do, an action is executed only right after it was decided, resolved,
authorized and recorded as such by its step, at most once in a step and at most as often as the step
budget allows; the recorded decisions are of the kind of their plan steps; and a run that returns
has recorded its completion as the last event of its trace and as no other one. -/
theorem execution_authorized (job : AcceptedExecutionJob)
    (oracle : Oracle runtimeSignature Thrown) :
    (∀ before c later ordinal action answer, calls oracle (run job) = before ++ c :: later →
      execution c = some (ordinal, action, answer) →
        ∃ earlier step stepIndex proposed descriptor, StepAt job ordinal step ∧
          Matches step proposed ∧
          before = earlier ++ exchange job step ordinal stepIndex proposed action descriptor) ∧
    ((calls oracle (run job)).filterMap executedOrdinal).Nodup ∧
    ((calls oracle (run job)).filterMap executedOrdinal).length ≤ maximumSteps job ∧
    (∀ plan ∈ job.plan, ∀ c ∈ calls oracle (run job), ∀ ordinal action,
      decision c = some (ordinal, action) → ∃ step, plan.steps.toList[ordinal]? = some step ∧
        step.actionKind = some (decidedKind action)) ∧
    ∀ c, outcome oracle (run job) = .ok c → ∃ earlier ordinal index,
      calls oracle (run job) = earlier ++
        [⟨.append ordinal index (.runCompleted (terminalPayload c.status)), .ok ()⟩] ∧
      ∀ c ∈ earlier, terminal c = none := by
  have hrun := (logs_run job).calls oracle
  obtain ⟨n, before, later, hlog, hconv, hlater⟩ := hrun.conversation
  have hordinals : (calls oracle (run job)).filterMap executedOrdinal =
      before.filterMap executedOrdinal := by
    rw [hlog, List.filterMap_append, List.filterMap_eq_nil_iff.mpr fun c hc =>
      executedOrdinal_eq_none (hlater c hc).1, List.append_nil]
  obtain ⟨hincreasing, hbound⟩ := hconv.ordinals
  have hnodup : (before.filterMap executedOrdinal).Nodup :=
    hincreasing.imp fun h => Nat.ne_of_lt h
  refine ⟨?_, ?_, ?_, ?_, ?_⟩
  · intro before' c later' ordinal action answer hsplit hc
    have hnot : c ∉ later := by
      intro hm
      rw [(hlater c hm).1] at hc
      cases hc
    rw [hlog] at hsplit
    obtain ⟨rest, hrest⟩ := split_append hnot hsplit
    exact hconv.exchanged hrest hc
  · rw [hordinals]
    exact hnodup
  · rw [hordinals]
    have hsub : (before.filterMap executedOrdinal).Subperm (List.range (maximumSteps job)) :=
      List.subperm_of_subset hnodup fun o ho => List.mem_range.mpr (hbound o ho).2
    exact hsub.length_le.trans_eq List.length_range
  · intro plan hplan c hc ordinal action hd
    rw [hlog] at hc
    rcases List.mem_append.mp hc with hc | hc
    · obtain ⟨step, hstep, hm⟩ := hconv.decisions hc hd
      rw [StepAt, Option.mem_def.mp hplan] at hstep
      obtain ⟨hsome, hget⟩ := hstep
      cases step with
      | none => cases hsome
      | some s => exact ⟨s, hget, kind_of_matches hm⟩
    · rw [(hlater c hc).2] at hd
      cases hd
  · intro c hc
    rw [hc] at hrun
    obtain ⟨earlier, ordinal, index, hleads, hlog⟩ := hrun.of_ok
    exact ⟨earlier, ordinal, index, hlog, hleads.conversation.choose_spec.unfinished⟩

/-- The answers of dependencies that work, where the executor, the recorder and the observer answer
as given. -/
def answering (execute : ExecuteAnswer) (record : StagePayload → Except Thrown Unit)
    (observe : Except Thrown (List String)) : Oracle runtimeSignature Thrown := fun _ op =>
  match op with
  | .beginBudget | .checkClock _ | .maximumOutputTokens _ => .ok ()
  | .capture _ => observe
  | .decide .. => .ok .click
  | .resolve .. => .ok (.legacyClick ⟨"node", "#node"⟩ "graph")
  | .authorize .. => .ok (.allowed none)
  | .execute .. => .ok execute
  | .verify .. => .ok .passed
  | .append _ _ payload => record payload

/-- The executor used its permit and answers that it timed out. -/
def timedOut : ExecuteAnswer := ⟨true, false, .ok (.failed (some "ActionTimedOut"))⟩

/-- A recorder that is too late for the outcome of an action. -/
def lateForOutcome : StagePayload → Except Thrown Unit
  | .actionExecuted _ => .error (.executionBudget .wallClockBudgetExceeded)
  | _ => .ok ()

/-- A run whose observer throws an error that the runtime does not know ends without an event of
its completion. -/
theorem unknown_error_unfinished :
    outcome (answering timedOut (fun _ => .ok ()) (.error .other)) (run (sampleJob "job" "run")) =
        .error .other ∧
      ∀ c ∈ calls (answering timedOut (fun _ => .ok ()) (.error .other))
        (run (sampleJob "job" "run")), terminal c = none := by
  refine ⟨rfl, ?_⟩
  have hcalls : calls (answering timedOut (fun _ => .ok ()) (.error .other))
      (run (sampleJob "job" "run")) = [⟨.beginBudget, .ok ()⟩, ⟨.checkClock 0, .ok ()⟩,
        ⟨.capture 0, .error .other⟩] := rfl
  rw [hcalls]
  simp only [List.forall_mem_cons]
  exact ⟨rfl, rfl, rfl, fun _ h => absurd h List.not_mem_nil⟩

/-! ## Unknown outcomes -/

/-- The completion of a run whose action may have happened without a trustworthy result. -/
def unknownOutcome (job : AcceptedExecutionJob) : ExecutionCompletion :=
  errorCompletion job "ActionOutcomeUnknown"

/-- The reply of the recorder to the outcome that is recorded right after an execution. -/
def outcomeRecorded : RuntimeLog → Except Thrown Unit
  | ⟨.append _ _ (.actionExecuted _), reply⟩ :: _ => reply
  | _ => .ok ()

def acceptsTerminal : RuntimeCall → Bool
  | ⟨.append _ _ (.runCompleted _), .ok _⟩ => true
  | _ => false

/-- The recorder accepted the last event of the trace. -/
def terminalRecorded (later : RuntimeLog) : Bool := later.any acceptsTerminal

/-- What the executor answered, and what the recorder replied to it, is told as an unknown
outcome: the permit was used, or the error or the code itself says so; and an error of the recorder
comes before the answer. -/
def TellsUnknown (job : AcceptedExecutionJob) (answer : ExecuteAnswer)
    (recorded : Except Thrown Unit) : Prop :=
  match answer.result, recorded with
  | .error e, _ => answer.dispatched ∨ completionFromError job e = some (unknownOutcome job)
  | .ok .ok, _ => False
  | .ok (.failed errorCode), .ok _ =>
    answer.dispatched ∨ errorCode = some "ActionOutcomeUnknown"
  | .ok (.failed _), .error e => completionFromError job e = some (unknownOutcome job)

/-- The execution that ended a run is found at one place only. -/
theorem split_unique {α : Type} {P : α → Prop} {before before' later later' : List α} {x y : α}
    (h : before ++ x :: later = before' ++ y :: later') (hx : P x) (hy : P y)
    (hb : ∀ a ∈ before', ¬ P a) (hl : ∀ a ∈ later', ¬ P a) :
    before = before' ∧ x = y ∧ later = later' := by
  induction before generalizing before' with
  | nil =>
    cases before' with
    | nil =>
      obtain ⟨rfl, rfl⟩ := List.cons.inj h
      exact ⟨rfl, rfl, rfl⟩
    | cons b bs =>
      obtain ⟨rfl, -⟩ := List.cons.inj h
      exact absurd hx (hb _ List.mem_cons_self)
  | cons a as ih =>
    cases before' with
    | nil =>
      obtain ⟨-, rfl⟩ := List.cons.inj h
      exact absurd hx (hl x (List.mem_append_right as List.mem_cons_self))
    | cons b bs =>
      obtain ⟨rfl, h'⟩ := List.cons.inj h
      obtain ⟨rfl, hxy, hlater⟩ := ih h' fun c hc => hb c (List.mem_cons_of_mem _ hc)
      exact ⟨rfl, hxy, hlater⟩

/-- An execution whose outcome was not ok. -/
def Bad (c : RuntimeCall) : Prop := ∃ e, execution c = some e ∧ e.2.2.result ≠ .ok .ok

theorem AllOk.not_bad (h : AllOk log) : ∀ c ∈ log, ¬ Bad c := by
  rintro c hc ⟨e, he, hne⟩
  exact hne (h c hc e he)

theorem completionFromError_unknown :
    completionFromError job .actionOutcomeUnknown = some (unknownOutcome job) := by
  simp [completionFromError, completionFromCode, unknownOutcome]

theorem blocked_ne_unknown (errorCode : String) :
    blockedCompletion job errorCode ≠ unknownOutcome job := by
  intro h
  have hs := congrArg ExecutionCompletion.status h
  cases hs

section TellsUnknown

variable {answer : ExecuteAnswer} {recorded : Except Thrown Unit}

theorem tellsUnknown_thrown {e : Thrown} (h : answer.result = .error e) :
    TellsUnknown job answer recorded ↔
      answer.dispatched = true ∨ completionFromError job e = some (unknownOutcome job) := by
  unfold TellsUnknown
  rw [h]

theorem tellsUnknown_unrecorded {errorCode : Option String} {e : Thrown}
    (h : answer.result = .ok (.failed errorCode)) : TellsUnknown job answer (.error e) ↔
      completionFromError job e = some (unknownOutcome job) := by
  unfold TellsUnknown
  rw [h]

theorem tellsUnknown_recorded {errorCode : Option String}
    (h : answer.result = .ok (.failed errorCode)) : TellsUnknown job answer (.ok ()) ↔
      answer.dispatched = true ∨ errorCode = some "ActionOutcomeUnknown" := by
  unfold TellsUnknown
  rw [h]

end TellsUnknown

/-- The completion that a failed execution leads to is the unknown outcome exactly when the answers
tell so. -/
theorem unknown_iff_of_executed {c : ExecutionCompletion} {tail rest : RuntimeLog}
    {r : Except Thrown ExecutionCompletion} {ordinal stepIndex : ℕ} {answer : ExecuteAnswer}
    (he : Executed job ordinal stepIndex answer tail (r.map some))
    (hne : answer.result ≠ .ok .ok)
    (hr : r = .ok c ∨ ∃ e, r = .error e ∧ completionFromError job e = some c) :
    c = unknownOutcome job ↔ TellsUnknown job answer (outcomeRecorded (tail ++ rest)) := by
  have hthrown : ∀ e, r = .error e → completionFromError job e = some c := by
    rintro e rfl
    obtain ⟨e', he', hc⟩ := hr.resolve_left nofun
    rwa [Except.error.inj he']
  rw [← Option.some_inj]
  generalize hq : r.map some = q at he
  cases he with
  | thrown e hanswer =>
    cases r with
    | ok c' => cases hq
    | error e' =>
      obtain rfl : e' = if answer.dispatched then .actionOutcomeUnknown else e :=
        Except.error.inj hq
      rw [← hthrown _ rfl, tellsUnknown_thrown hanswer]
      cases hd : answer.dispatched with
      | true => simp [completionFromError_unknown]
      | false => simp
  | unrecorded outcome e hanswer =>
    cases r with
    | ok c' => cases hq
    | error e' =>
      obtain rfl : e' = e := Except.error.inj hq
      cases outcome with
      | ok => exact absurd hanswer hne
      | failed code =>
        rw [← hthrown _ rfl]
        exact (tellsUnknown_unrecorded hanswer).symm
  | recorded outcome hanswer =>
    cases r with
    | error e => cases hq
    | ok c' =>
      obtain rfl : c' = c := by
        rcases hr with hr | ⟨e, hr, -⟩
        · exact Except.ok.inj hr
        · cases hr
      have hc : some c' = completionOfOutcome job answer.dispatched outcome := Except.ok.inj hq
      cases outcome with
      | ok => cases hc
      | failed code =>
        refine Iff.trans ?_ (tellsUnknown_recorded hanswer).symm
        rw [hc, completionOfOutcome]
        split
        · next h => exact ⟨fun _ => h, fun _ => rfl⟩
        · next h =>
          exact ⟨fun hs => absurd (Option.some.inj hs) (blocked_ne_unknown _), fun hs =>
            absurd hs h⟩

theorem acceptsTerminal_eq_false {c : RuntimeCall} (h : terminal c = none) :
    acceptsTerminal c = false := by
  unfold acceptsTerminal
  split
  · cases h
  · rfl

theorem terminalRecorded_append {tail rest : RuntimeLog} (h : ∀ c ∈ tail, Quiet c) :
    terminalRecorded (tail ++ rest) = terminalRecorded rest := by
  have htail : tail.any acceptsTerminal = false := by
    rw [List.any_eq_false]
    intro c hc
    rw [acceptsTerminal_eq_false (h c hc).terminal]
    exact Bool.false_ne_true
  rw [terminalRecorded, List.any_append, htail, Bool.false_or]
  rfl

/-- An action whose permit was used and that gave no ok result is told as an unknown outcome, and
is the last action of its run, exactly when the answers of the executor and the recorder tell so and
the last event of the trace is recorded. -/
theorem unknown_outcome_reported_iff (job : AcceptedExecutionJob)
    (oracle : Oracle runtimeSignature Thrown) (before later : RuntimeLog) (ordinal : ℕ)
    (action : ResolvedAction) (answer : ExecuteAnswer)
    (hlog : calls oracle (run job) = before ++ ⟨.execute ordinal action, .ok answer⟩ :: later)
    (_hdispatched : answer.dispatched = true ∨ answer.late = true)
    (hresult : answer.result ≠ .ok .ok) :
    (outcome oracle (run job) = .ok (unknownOutcome job) ∧ ∀ c ∈ later, execution c = none) ↔
      TellsUnknown job answer (outcomeRecorded later) ∧ terminalRecorded later = true := by
  have hrun := (logs_run job).calls oracle
  rw [hlog] at hrun
  have hbad : Bad ⟨.execute ordinal action, .ok answer⟩ := ⟨_, rfl, hresult⟩
  -- the execution is the one that ended the run
  have hfailed : ∀ {log : RuntimeLog} {r : Except Thrown ExecutionCompletion} {rest : RuntimeLog},
      Finished job log r → (∀ c ∈ rest, execution c = none) →
        before ++ ⟨.execute ordinal action, .ok answer⟩ :: later = log ++ rest →
          ∃ tail stepIndex, later = tail ++ rest ∧ (∀ c ∈ tail, Quiet c) ∧
            Executed job ordinal stepIndex answer tail (r.map some) := by
    intro log r rest hf hrest hsplit
    have hmem : (⟨.execute ordinal action, .ok answer⟩ : RuntimeCall) ∈ log := by
      have hm : (⟨.execute ordinal action, .ok answer⟩ : RuntimeCall) ∈ log ++ rest := by
        rw [← hsplit]
        exact List.mem_append_right _ List.mem_cons_self
      rcases List.mem_append.mp hm with hm | hm
      · exact hm
      · cases hrest _ hm
    obtain ⟨before', tail, ordinal', stepIndex, action', answer', rfl, hok, hne, he⟩ :=
      hf.ok.resolve_left fun hok => hok.not_bad _ hmem hbad
    have hnone : ∀ c ∈ tail ++ rest, ¬ Bad c := by
      rintro c hc ⟨e, hx, -⟩
      rcases List.mem_append.mp hc with hc | hc
      · exact execution_of_quiet (he.quiet c hc) hx
      · rw [hrest c hc] at hx
        cases hx
    rw [List.append_assoc, List.cons_append] at hsplit
    obtain ⟨-, hcall, hlater⟩ := split_unique hsplit hbad ⟨_, rfl, hne⟩ hok.not_bad hnone
    cases hcall
    exact ⟨tail, stepIndex, hlater, he.quiet, he⟩
  have hterminal : ∀ (ordinal : ℕ) (index : Option ℕ) (payload : TerminalPayload)
      (reply : Except Thrown Unit), ∀ c ∈ ([⟨.append ordinal index (.runCompleted payload), reply⟩] :
        RuntimeLog), execution c = none := by
    intro ordinal index payload reply c hc
    rw [List.mem_singleton.mp hc]
    rfl
  generalize hsplit : before ++ ⟨.execute ordinal action, .ok answer⟩ :: later = log at hrun
  generalize outcome oracle (run job) = r at hrun ⊢
  cases hrun with
  | refused e =>
    have hm : (⟨.execute ordinal action, .ok answer⟩ : RuntimeCall) ∈
        [(⟨.beginBudget, .error e⟩ : RuntimeCall)] := by
      rw [← hsplit]
      exact List.mem_append_right _ List.mem_cons_self
    cases List.mem_singleton.mp hm
  | thrown _ e h he =>
    obtain ⟨tail, stepIndex, rfl, hquiet, -⟩ := hfailed h.toFinished
      (fun c hc => absurd hc List.not_mem_nil) (hsplit.trans (List.append_nil log).symm)
    refine ⟨nofun, fun ⟨_, ht⟩ => ?_⟩
    rw [terminalRecorded_append hquiet] at ht
    cases ht
  | unrecorded log c ordinal' index e h =>
    obtain ⟨r', hf⟩ : ∃ r', Finished job log r' := by
      rcases h with h | ⟨e, h, -⟩ <;> exact ⟨_, h.toFinished⟩
    obtain ⟨tail, stepIndex, rfl, hquiet, -⟩ := hfailed hf (hterminal ordinal' index _ _) hsplit
    refine ⟨nofun, fun ⟨_, ht⟩ => ?_⟩
    rw [terminalRecorded_append hquiet] at ht
    cases ht
  | recorded log c ordinal' index h =>
    obtain ⟨r', hf, hr'⟩ : ∃ r', Finished job log r' ∧
        (r' = .ok c ∨ ∃ e, r' = .error e ∧ completionFromError job e = some c) := by
      rcases h with h | ⟨e, h, he⟩
      · exact ⟨_, h.toFinished, .inl rfl⟩
      · exact ⟨_, h.toFinished, .inr ⟨e, rfl, he⟩⟩
    have hrest := hterminal ordinal' index (terminalPayload c.status) (.ok ())
    obtain ⟨tail, stepIndex, rfl, hquiet, he⟩ := hfailed hf hrest hsplit
    have hnone : ∀ c' ∈ tail ++ [⟨.append ordinal' index
        (.runCompleted (terminalPayload c.status)), .ok ()⟩], execution c' = none := by
      intro c' hc'
      rcases List.mem_append.mp hc' with hc' | hc'
      · exact (hquiet c' hc').execution
      · exact hrest c' hc'
    rw [terminalRecorded_append hquiet, ← unknown_iff_of_executed he hresult hr']
    refine ⟨fun ⟨hc, _⟩ => ⟨Except.ok.inj hc, rfl⟩, fun ⟨hc, _⟩ => ⟨congrArg Except.ok hc, hnone⟩⟩

/-- The calls before the execution in a run of a job without a plan. -/
def beforeExecution : RuntimeLog :=
  [⟨.beginBudget, .ok ()⟩, ⟨.checkClock 0, .ok ()⟩, ⟨.capture 0, .ok []⟩,
    ⟨.append 0 none (.observation []), .ok ()⟩] ++
      exchange (sampleJob "job" "run") none 0 0 .click (.legacyClick ⟨"node", "#node"⟩ "graph") none

/-- A timeout that is recorded is told as an unknown outcome. -/
theorem recorded_timeout_reported :
    outcome (answering timedOut (fun _ => .ok ()) (.ok [])) (run (sampleJob "job" "run")) =
      .ok (unknownOutcome (sampleJob "job" "run")) :=
  ((unknown_outcome_reported_iff (sampleJob "job" "run")
    (answering timedOut (fun _ => .ok ()) (.ok [])) beforeExecution
    [⟨.append 0 none (.actionExecuted (.failed (some "ActionTimedOut"))), .ok ()⟩,
      ⟨.append 1 none (.runCompleted (.error "ActionOutcomeUnknown")), .ok ()⟩] 0
    (.legacyClick ⟨"node", "#node"⟩ "graph") timedOut rfl (.inl rfl) nofun).mpr
      ⟨(tellsUnknown_recorded rfl).mpr (.inl rfl), rfl⟩).1

/-- A timeout whose record comes too late is told as a denial by the budget. -/
theorem unrecorded_timeout_blocked :
    (⟨.execute 0 (.legacyClick ⟨"node", "#node"⟩ "graph"), .ok timedOut⟩ : RuntimeCall) ∈
        calls (answering timedOut lateForOutcome (.ok [])) (run (sampleJob "job" "run")) ∧
      outcome (answering timedOut lateForOutcome (.ok [])) (run (sampleJob "job" "run")) =
        .ok (blockedCompletion (sampleJob "job" "run") "WallClockBudgetExceeded") := by
  refine ⟨?_, rfl⟩
  have hcalls : calls (answering timedOut lateForOutcome (.ok [])) (run (sampleJob "job" "run")) =
      beforeExecution ++ ⟨.execute 0 (.legacyClick ⟨"node", "#node"⟩ "graph"), .ok timedOut⟩ ::
        [⟨.append 0 none (.actionExecuted (.failed (some "ActionTimedOut"))),
            .error (.executionBudget .wallClockBudgetExceeded)⟩,
          ⟨.append 1 none (.runCompleted (.blocked (some "WallClockBudgetExceeded"))), .ok ()⟩] :=
    rfl
  rw [hcalls]
  exact List.mem_append_right _ List.mem_cons_self

/-! ## Verified claims -/

def verifiedClaims : RuntimeCall → Option (List String)
  | ⟨.verify _ claimIds, .ok .passed⟩ => some claimIds
  | _ => none

/-- Every expected claim is among the claims of a verification that passed, and no action is
executed after the last verification of expected claims that passed. -/
def VerifiedExpected (log : RuntimeLog) (expected : List String) : Prop :=
  (∀ id ∈ expected, ∃ c ∈ log, ∃ claimIds, verifiedClaims c = some claimIds ∧ id ∈ claimIds) ∧
  ∃ before c later claimIds, log = before ++ c :: later ∧ verifiedClaims c = some claimIds ∧
    (∃ id ∈ claimIds, id ∈ expected) ∧ ∀ c ∈ later, execution c = none

def stepClaims : ExecutionPlanStep → List String
  | .verify _ claimIds => claimIds.toList
  | _ => []

/-- The plan leaves the verification to the end of the run, or its own steps verify every expected
claim, and no action follows the last one of them that verifies expected claims. -/
def PlanVerifies (plan : ExecutionJobPlanSnapshot) : Prop :=
  plan.steps.toList.any isVerify = false ∨
    (∀ id ∈ plan.expectedClaimIds.toList, ∃ step ∈ plan.steps.toList, id ∈ stepClaims step) ∧
    ∃ before step after, plan.steps.toList = before ++ step :: after ∧
      (∃ id ∈ stepClaims step, id ∈ plan.expectedClaimIds.toList) ∧ ∀ s ∈ after, isVerify s = true

/-- The same of the marks of a log. -/
def MarksVerify (marks : List Mark) (expected : List String) : Prop :=
  (∀ id ∈ expected, ∃ claimIds, Mark.verified claimIds ∈ marks ∧ id ∈ claimIds) ∧
  ∃ before claimIds later, marks = before ++ .verified claimIds :: later ∧
    (∃ id ∈ claimIds, id ∈ expected) ∧ Mark.acted ∉ later

theorem mark_eq_verified {c : RuntimeCall} {claimIds : List String} :
    mark c = some (.verified claimIds) ↔ verifiedClaims c = some claimIds := by
  unfold mark verifiedClaims
  split <;> simp

theorem mark_ne_acted {c : RuntimeCall} : mark c ≠ some .acted ↔ execution c = none := by
  unfold mark execution
  split <;> simp

theorem verifiedExpected_iff (log : RuntimeLog) (expected : List String) :
    VerifiedExpected log expected ↔ MarksVerify (log.filterMap mark) expected := by
  refine and_congr (forall₂_congr fun id _ => ?_) ?_
  · constructor
    · rintro ⟨c, hc, claimIds, hv, hid⟩
      exact ⟨claimIds, List.mem_filterMap.mpr ⟨c, hc, mark_eq_verified.mpr hv⟩, hid⟩
    · rintro ⟨claimIds, hm, hid⟩
      obtain ⟨c, hc, hv⟩ := List.mem_filterMap.mp hm
      exact ⟨c, hc, claimIds, mark_eq_verified.mp hv, hid⟩
  · constructor
    · rintro ⟨before, c, later, claimIds, rfl, hv, hid, hlater⟩
      refine ⟨before.filterMap mark, claimIds, later.filterMap mark, ?_, hid, ?_⟩
      · rw [List.filterMap_append, List.filterMap_cons_some (mark_eq_verified.mpr hv)]
      · intro hm
        obtain ⟨c, hc, ha⟩ := List.mem_filterMap.mp hm
        exact mark_ne_acted.mpr (hlater c hc) ha
    · rintro ⟨before, claimIds, later, hm, hid, hlater⟩
      obtain ⟨before', rest, rfl, -, hrest⟩ := List.filterMap_eq_append_iff.mp hm
      obtain ⟨skipped, c, later', rfl, -, hv, hl⟩ := List.filterMap_eq_cons_iff.mp hrest
      refine ⟨before' ++ skipped, c, later', claimIds, by rw [List.append_assoc],
        mark_eq_verified.mp hv, hid, fun d hd => mark_ne_acted.mp fun ha => ?_⟩
      rw [← hl] at hlater
      exact hlater (List.mem_filterMap.mpr ⟨d, hd, ha⟩)

theorem stepMark_eq_verified {step : ExecutionPlanStep} {claimIds : List String} :
    stepMark step = .verified claimIds ↔ isVerify step = true ∧ stepClaims step = claimIds := by
  cases step <;> simp [stepMark, isVerify, stepClaims, ExecutionPlanStep.actionKind]

theorem stepMark_eq_acted {step : ExecutionPlanStep} :
    stepMark step = .acted ↔ ¬ isVerify step = true := by
  cases step <;> simp [stepMark, isVerify, ExecutionPlanStep.actionKind]

theorem isVerify_of_mem_stepClaims {step : ExecutionPlanStep} {id : String}
    (h : id ∈ stepClaims step) : isVerify step = true := by
  cases step <;> first | rfl | cases h

theorem marksVerify_plan (plan : ExecutionJobPlanSnapshot) :
    MarksVerify (planMarks plan) plan.expectedClaimIds.toList ↔ PlanVerifies plan := by
  unfold planMarks PlanVerifies
  cases hv : plan.steps.toList.any isVerify with
  | false =>
    rw [if_neg Bool.false_ne_true]
    refine ⟨fun _ => .inl rfl, fun _ => ⟨fun id hid => ⟨_, List.mem_append_right _
      List.mem_cons_self, hid⟩, _, _, [], rfl, ?_, List.not_mem_nil⟩⟩
    exact ⟨plan.expectedClaimIds.first, List.mem_cons_self, List.mem_cons_self⟩
  | true =>
    rw [if_pos rfl, List.append_nil]
    refine Iff.trans ?_ (or_iff_right nofun).symm
    refine and_congr (forall₂_congr fun id _ => ?_) ?_
    · constructor
      · rintro ⟨claimIds, hm, hid⟩
        obtain ⟨step, hstep, he⟩ := List.mem_map.mp hm
        exact ⟨step, hstep, by rw [(stepMark_eq_verified.mp he).2]; exact hid⟩
      · rintro ⟨step, hstep, hid⟩
        have hmark := stepMark_eq_verified.mpr ⟨isVerify_of_mem_stepClaims hid, rfl⟩
        exact ⟨_, List.mem_map.mpr ⟨step, hstep, hmark⟩, hid⟩
    · constructor
      · rintro ⟨before, claimIds, later, hm, hid, hlater⟩
        obtain ⟨before', rest, hsteps, -, hrest⟩ := List.map_eq_append_iff.mp hm
        obtain ⟨step, after, rfl, he, rfl⟩ := List.map_eq_cons_iff.mp hrest
        refine ⟨before', step, after, hsteps, by rw [(stepMark_eq_verified.mp he).2]; exact hid, ?_⟩
        intro s hs
        by_contra hn
        exact hlater (List.mem_map.mpr ⟨s, hs, stepMark_eq_acted.mpr hn⟩)
      · rintro ⟨before, step, after, hsteps, ⟨id, hid, hexpected⟩, hafter⟩
        have hmark := stepMark_eq_verified.mpr ⟨isVerify_of_mem_stepClaims hid, rfl⟩
        refine ⟨before.map stepMark, stepClaims step, after.map stepMark, ?_, ⟨id, hid, hexpected⟩, ?_⟩
        · rw [hsteps, List.map_append, List.map_cons, hmark]
        · intro hm
          obtain ⟨s, hs, he⟩ := List.mem_map.mp hm
          exact stepMark_eq_acted.mp he (hafter s hs)

theorem completionFromError_ne_passed {e : Thrown} {c : ExecutionCompletion}
    (h : completionFromError job e = some c) : c.status ≠ .passed := by
  have hp := produced_of_error h
  intro hs
  cases hp with
  | passed =>
    unfold completionFromError completionFromCode at h
    split at h <;> first | cases h | (split at h <;> cases h)
  | finding f => cases hs
  | blocked errorCode => cases hs
  | error errorCode => cases hs

/-- A run of a plan that passed has verified every expected claim, and done nothing after that,
exactly when the plan leaves the verification to the end of the run or verifies every expected claim
itself, without an action after the last such step. -/
theorem passed_verified_iff (job : AcceptedExecutionJob) (plan : ExecutionJobPlanSnapshot)
    (hplan : job.plan = some plan) (oracle : Oracle runtimeSignature Thrown)
    (c : ExecutionCompletion) (hrun : outcome oracle (run job) = .ok c)
    (hpassed : c.status = .passed) :
    VerifiedExpected (calls oracle (run job)) plan.expectedClaimIds.toList ↔ PlanVerifies plan := by
  have h := (logs_run job).calls oracle
  rw [hrun] at h
  obtain ⟨earlier, ordinal, index, hleads, hlog⟩ := h.of_ok
  have hmarks : (calls oracle (run job)).filterMap mark = planMarks plan := by
    rw [hlog, List.filterMap_append, List.filterMap_cons_none rfl, List.filterMap_nil,
      List.append_nil]
    rcases hleads with hc | ⟨e, -, he⟩
    · exact hc.passed c rfl hpassed plan hplan
    · exact absurd hpassed (completionFromError_ne_passed he)
  rw [verifiedExpected_iff, hmarks]
  exact marksVerify_plan plan

/-- A job that clicks after it has verified its claims. -/
def planJob (steps : NonEmptyList ExecutionPlanStep) : AcceptedExecutionJob :=
  { sampleJob "job" "run" with
    plan := some {
      missionId := "mission"
      missionRevision := 1
      testCaseId := "case"
      steps := steps
      expectedClaimIds := ⟨"claim", []⟩
      budget := ⟨2, 1000, 1000⟩ } }

/-- The action of the executor was done. -/
def done : ExecuteAnswer := ⟨true, false, .ok .ok⟩

def clickStep : ExecutionPlanStep := .click none ⟨none, none, "continue"⟩

/-- A plan that verifies in the end passes verified. -/
theorem verified_in_the_end :
    VerifiedExpected (calls (answering done (fun _ => .ok ()) (.ok []))
      (run (planJob ⟨clickStep, [.verify none ⟨"claim", []⟩]⟩))) ["claim"] := by
  have h := passed_verified_iff (planJob ⟨clickStep, [.verify none ⟨"claim", []⟩]⟩) _ rfl
    (answering done (fun _ => .ok ()) (.ok []))
    (passedCompletion (planJob ⟨clickStep, [.verify none ⟨"claim", []⟩]⟩)) rfl rfl
  refine h.mpr (.inr ⟨?_, [clickStep], .verify none ⟨"claim", []⟩, [], rfl, ?_, ?_⟩)
  · exact fun id hid => ⟨.verify none ⟨"claim", []⟩, List.mem_cons_of_mem _ List.mem_cons_self, hid⟩
  · exact ⟨"claim", List.mem_cons_self, List.mem_cons_self⟩
  · exact fun s hs => absurd hs List.not_mem_nil

/-- A plan that verifies first and then clicks passes, and nothing is verified after the click. -/
theorem passed_after_click :
    outcome (answering done (fun _ => .ok ()) (.ok []))
        (run (planJob ⟨.verify none ⟨"claim", []⟩, [clickStep]⟩)) =
        .ok (passedCompletion (planJob ⟨.verify none ⟨"claim", []⟩, [clickStep]⟩)) ∧
      ¬ VerifiedExpected (calls (answering done (fun _ => .ok ()) (.ok []))
        (run (planJob ⟨.verify none ⟨"claim", []⟩, [clickStep]⟩))) ["claim"] := by
  refine ⟨rfl, ?_⟩
  rw [verifiedExpected_iff]
  have hmarks : (calls (answering done (fun _ => .ok ()) (.ok []))
      (run (planJob ⟨.verify none ⟨"claim", []⟩, [clickStep]⟩))).filterMap mark =
        [.verified ["claim"], .acted] := rfl
  rw [hmarks]
  rintro ⟨-, before, claimIds, later, hsplit, -, hlater⟩
  match before with
  | [] =>
    obtain ⟨-, rfl⟩ := List.cons.inj hsplit
    exact hlater List.mem_cons_self
  | [a] => cases (List.cons.inj (List.cons.inj hsplit).2).1
  | a :: b :: before => simp at hsplit

end Qualigence.Kernel
