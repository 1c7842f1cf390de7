import Qualigence.Kernel.Execution

/-! # What a step calls

Each function of the runtime is described once, by the calls it adds to the log and by how it ends,
whatever the replies are. A conversation is a log that such steps build up: an action is executed
only at the end of an exchange about it.
-/

namespace Qualigence.Kernel

open Foundation Foundation.Program Protocol Runner

abbrev RuntimeCall := Foundation.Call runtimeSignature Thrown
abbrev RuntimeLog := List RuntimeCall

/-! ## Kinds of calls -/

/-- The execution of an action that was called, with its answer. -/
def execution : RuntimeCall → Option (ℕ × ResolvedAction × ExecuteAnswer)
  | ⟨.execute ordinal action, .ok answer⟩ => some (ordinal, action, answer)
  | _ => none

/-- The decision that a call records for a step. -/
def decision : RuntimeCall → Option (ℕ × ProposedAction)
  | ⟨.append ordinal _ (.decision action), _⟩ => some (ordinal, action)
  | _ => none

def terminal : RuntimeCall → Option TerminalPayload
  | ⟨.append _ _ (.runCompleted payload), _⟩ => some payload
  | _ => none

/-- What a run has to show for itself: an action that was executed, or claims that were verified
as passed. -/
inductive Mark where
  | acted
  | verified (claimIds : List String)
  deriving DecidableEq

def mark : RuntimeCall → Option Mark
  | ⟨.execute _ _, .ok _⟩ => some .acted
  | ⟨.verify _ claimIds, .ok .passed⟩ => some (.verified claimIds)
  | _ => none

/-- A call that neither executes, decides nor completes, and marks nothing. -/
structure Quiet (c : RuntimeCall) : Prop where
  execution : execution c = none
  decision : decision c = none
  terminal : terminal c = none
  mark : mark c = none

/-- The log goes on with quiet calls. -/
def QuietAfter (log log' : RuntimeLog) : Prop := ∃ calls, log' = log ++ calls ∧ ∀ c ∈ calls, Quiet c

theorem QuietAfter.refl (log : RuntimeLog) : QuietAfter log log :=
  ⟨[], (List.append_nil log).symm, fun _ h => absurd h List.not_mem_nil⟩

theorem QuietAfter.snoc {log log' : RuntimeLog} (h : QuietAfter log log') {c : RuntimeCall}
    (hc : Quiet c) : QuietAfter log (log' ++ [c]) := by
  obtain ⟨calls, rfl, hcalls⟩ := h
  refine ⟨calls ++ [c], List.append_assoc .., ?_⟩
  intro d hd
  rcases List.mem_append.mp hd with hd | hd
  · exact hcalls d hd
  · rw [List.mem_singleton.mp hd]
    exact hc

theorem QuietAfter.trans {log log' log'' : RuntimeLog} (h : QuietAfter log log')
    (h' : QuietAfter log' log'') : QuietAfter log log'' := by
  obtain ⟨calls, rfl, hcalls⟩ := h
  obtain ⟨calls', rfl, hcalls'⟩ := h'
  refine ⟨calls ++ calls', List.append_assoc .., ?_⟩
  intro c hc
  exact (List.mem_append.mp hc).elim (hcalls c) (hcalls' c)

/-! ## Captures and budgets -/

section Job

variable {job : AcceptedExecutionJob} {log : RuntimeLog}

theorem logs_beforeStep (ordinal stepIndex : ℕ) :
    Logs (fun log' r => QuietAfter log log' ∧ (r = .ok () → ordinal < maximumSteps job)) log
      (beforeStep job ordinal stepIndex) := by
  refine logs_step (fun e => ⟨(QuietAfter.refl log).snoc ⟨rfl, rfl, rfl, rfl⟩, nofun⟩) fun _ => ?_
  have hq : QuietAfter log (log ++ [⟨.checkClock ordinal, .ok ()⟩]) :=
    (QuietAfter.refl log).snoc ⟨rfl, rfl, rfl, rfl⟩
  dsimp only
  split
  · exact ⟨hq, nofun⟩
  · next h => exact ⟨hq, fun _ => by omega⟩

theorem logs_capture (ordinal stepIndex : ℕ) :
    Logs (fun log' _ => QuietAfter log log') log (capture job ordinal stepIndex) := by
  refine logs_step (fun e => (QuietAfter.refl log).snoc ⟨rfl, rfl, rfl, rfl⟩) fun observation => ?_
  have hq : QuietAfter log (log ++ [⟨.capture ordinal, .ok observation⟩]) :=
    (QuietAfter.refl log).snoc ⟨rfl, rfl, rfl, rfl⟩
  exact logs_step (fun e => hq.snoc ⟨rfl, rfl, rfl, rfl⟩) fun _ => hq.snoc ⟨rfl, rfl, rfl, rfl⟩

/-! ## Steps that act -/

/-- The exchange about one action: it is decided, resolved and authorized, each with a record of
it, and then executed. -/
def exchange (job : AcceptedExecutionJob) (step : Option ExecutionPlanStep) (ordinal stepIndex : ℕ)
    (decision : ProposedAction) (action : ResolvedAction)
    (descriptor : Option ExecutionPermitDescriptor) : RuntimeLog :=
  [⟨.decide ordinal step, .ok decision⟩,
    ⟨.append ordinal (traceIndex job stepIndex) (.decision decision), .ok ()⟩,
    ⟨.resolve ordinal decision, .ok action⟩,
    ⟨.append ordinal (traceIndex job stepIndex) (.actionResolved action), .ok ()⟩,
    ⟨.authorize ordinal action, .ok (.allowed descriptor)⟩,
    ⟨.append ordinal (traceIndex job stepIndex) (.policyAuthorized descriptor), .ok ()⟩,
    ⟨.maximumOutputTokens ordinal, .ok ()⟩]

/-- The decision is the action of the step, if the job has a plan. -/
def Matches (step : Option ExecutionPlanStep) (decision : ProposedAction) : Prop :=
  ∀ s ∈ step, assertDecisionMatchesStep decision s = .ok ()

/-- The call that executes, and what follows it in the log and as a result. -/
inductive Executed (job : AcceptedExecutionJob) (ordinal stepIndex : ℕ) (answer : ExecuteAnswer) :
    RuntimeLog → Except Thrown (Option ExecutionCompletion) → Prop where
  | thrown (e : Thrown) (h : answer.result = .error e) : Executed job ordinal stepIndex answer []
      (.error (if answer.dispatched then .actionOutcomeUnknown else e))
  | unrecorded (outcome : ActionOutcome) (e : Thrown) (h : answer.result = .ok outcome) :
    Executed job ordinal stepIndex answer
      [⟨.append ordinal (traceIndex job stepIndex) (.actionExecuted outcome), .error e⟩] (.error e)
  | recorded (outcome : ActionOutcome) (h : answer.result = .ok outcome) :
    Executed job ordinal stepIndex answer
      [⟨.append ordinal (traceIndex job stepIndex) (.actionExecuted outcome), .ok ()⟩]
      (.ok (completionOfOutcome job answer.dispatched outcome))

/-- A step that acts ends before its action, or with it. -/
inductive Acts (job : AcceptedExecutionJob) (step : Option ExecutionPlanStep)
    (ordinal stepIndex : ℕ) (log : RuntimeLog) :
    RuntimeLog → Except Thrown (Option ExecutionCompletion) → Prop where
  | undecided (log' : RuntimeLog) (r : Except Thrown (Option ExecutionCompletion))
    (h : QuietAfter log log') (hr : ∃ e, r = .error e) : Acts job step ordinal stepIndex log log' r
  | decided (before log' : RuntimeLog) (index : Option ℕ) (decision : ProposedAction)
    (reply : Except Thrown Unit) (r : Except Thrown (Option ExecutionCompletion))
    (hb : QuietAfter log before) (hm : Matches step decision)
    (h : QuietAfter (before ++ [⟨.append ordinal index (.decision decision), reply⟩]) log')
    (hr : (∃ e, r = .error e) ∨ r = .ok (some (blockedCompletion job "PolicyDenied"))) :
    Acts job step ordinal stepIndex log log' r
  | executed (decision : ProposedAction) (action : ResolvedAction)
    (descriptor : Option ExecutionPermitDescriptor) (answer : ExecuteAnswer) (tail : RuntimeLog)
    (r : Except Thrown (Option ExecutionCompletion)) (hm : Matches step decision)
    (h : Executed job ordinal stepIndex answer tail r) :
    Acts job step ordinal stepIndex log (log ++ exchange job step ordinal stepIndex decision action
      descriptor ++ ⟨.execute ordinal action, .ok answer⟩ :: tail) r

theorem matchStep_eq (step : Option ExecutionPlanStep) (decision : ProposedAction) :
    matchStep decision step = pure () ∧ Matches step decision ∨
      ∃ e, matchStep decision step = .throw e := by
  cases step with
  | none => exact Or.inl ⟨rfl, nofun⟩
  | some s =>
    rw [matchStep]
    cases h : assertDecisionMatchesStep decision s with
    | ok a =>
      refine Or.inl ⟨rfl, ?_⟩
      rintro s' ⟨⟩
      exact h
    | error e => exact Or.inr ⟨e, rfl⟩

theorem logs_executeStep (step : Option ExecutionPlanStep) (ordinal stepIndex : ℕ) :
    Logs (Acts job step ordinal stepIndex log) log (executeStep job step ordinal stepIndex) := by
  have hquiet (op : RuntimeOp) (r : Except Thrown op.Reply) (hc : Quiet ⟨op, r⟩) :
      QuietAfter log (log ++ [⟨op, r⟩]) := (QuietAfter.refl log).snoc hc
  refine logs_step (fun e => .undecided _ _ (hquiet _ _ ⟨rfl, rfl, rfl, rfl⟩) ⟨e, rfl⟩) ?_
  intro (decision : ProposedAction)
  have hb := hquiet (.decide ordinal step) (.ok decision) ⟨rfl, rfl, rfl, rfl⟩
  rcases matchStep_eq step decision with ⟨hmatch, hm⟩ | ⟨e, hmatch⟩
  swap
  · rw [hmatch]
    exact .undecided _ _ hb ⟨e, rfl⟩
  rw [hmatch]
  refine logs_step (fun e => .decided _ _ _ decision _ _ hb hm (.refl _) (.inl ⟨e, rfl⟩)) ?_
  intro _
  -- from here on the decision is recorded
  have hd := QuietAfter.refl (log ++ [⟨.decide ordinal step, .ok decision⟩] ++
    [⟨.append ordinal (traceIndex job stepIndex) (.decision decision), .ok ()⟩])
  refine logs_step (fun e => .decided _ _ _ decision _ _ hb hm
    (hd.snoc ⟨rfl, rfl, rfl, rfl⟩) (.inl ⟨e, rfl⟩)) ?_
  intro (action : ResolvedAction)
  have hd := hd.snoc (c := ⟨.resolve ordinal decision, .ok action⟩) ⟨rfl, rfl, rfl, rfl⟩
  refine logs_step (fun e => .decided _ _ _ decision _ _ hb hm
    (hd.snoc ⟨rfl, rfl, rfl, rfl⟩) (.inl ⟨e, rfl⟩)) ?_
  intro _
  have hd := hd.snoc (c := ⟨.append ordinal (traceIndex job stepIndex) (.actionResolved action),
    .ok ()⟩) ⟨rfl, rfl, rfl, rfl⟩
  refine logs_step (fun e => .decided _ _ _ decision _ _ hb hm
    (hd.snoc ⟨rfl, rfl, rfl, rfl⟩) (.inl ⟨e, rfl⟩)) ?_
  intro (policyDecision : PolicyDecision)
  have hd := hd.snoc (c := ⟨.authorize ordinal action, .ok policyDecision⟩) ⟨rfl, rfl, rfl, rfl⟩
  cases policyDecision with
  | denied reason =>
    refine logs_step (fun e => .decided _ _ _ decision _ _ hb hm
      (hd.snoc ⟨rfl, rfl, rfl, rfl⟩) (.inl ⟨e, rfl⟩)) ?_
    intro _
    exact .decided _ _ _ decision _ _ hb hm (hd.snoc ⟨rfl, rfl, rfl, rfl⟩) (.inr rfl)
  | allowed descriptor =>
    refine logs_step (fun e => .decided _ _ _ decision _ _ hb hm
      (hd.snoc ⟨rfl, rfl, rfl, rfl⟩) (.inl ⟨e, rfl⟩)) ?_
    intro _
    have hd := hd.snoc (c := ⟨.append ordinal (traceIndex job stepIndex)
      (.policyAuthorized descriptor), .ok ()⟩) ⟨rfl, rfl, rfl, rfl⟩
    refine logs_step (fun e => .decided _ _ _ decision _ _ hb hm
      (hd.snoc ⟨rfl, rfl, rfl, rfl⟩) (.inl ⟨e, rfl⟩)) ?_
    intro _
    have hd := hd.snoc (c := ⟨.maximumOutputTokens ordinal, .ok ()⟩) ⟨rfl, rfl, rfl, rfl⟩
    refine logs_step (fun e => .decided _ _ _ decision _ _ hb hm
      (hd.snoc ⟨rfl, rfl, rfl, rfl⟩) (.inl ⟨e, rfl⟩)) ?_
    intro (answer : ExecuteAnswer)
    have hexecuted (tail : RuntimeLog) (r : Except Thrown (Option ExecutionCompletion))
        (h : Executed job ordinal stepIndex answer tail r) :
        Acts job step ordinal stepIndex log (log ++ [⟨.decide ordinal step, .ok decision⟩] ++
          [⟨.append ordinal (traceIndex job stepIndex) (.decision decision), .ok ()⟩] ++
          [⟨.resolve ordinal decision, .ok action⟩] ++
          [⟨.append ordinal (traceIndex job stepIndex) (.actionResolved action), .ok ()⟩] ++
          [⟨.authorize ordinal action, .ok (.allowed descriptor)⟩] ++
          [⟨.append ordinal (traceIndex job stepIndex) (.policyAuthorized descriptor), .ok ()⟩] ++
          [⟨.maximumOutputTokens ordinal, .ok ()⟩] ++ [⟨.execute ordinal action, .ok answer⟩] ++
            tail) r := by
      have hacts : Acts job step ordinal stepIndex log (log ++ exchange job step ordinal stepIndex
          decision action descriptor ++ ⟨.execute ordinal action, .ok answer⟩ :: tail) r :=
        .executed decision action descriptor answer tail r hm h
      simpa [exchange] using hacts
    change Logs _ _ (afterExecution job ordinal stepIndex answer)
    unfold afterExecution
    cases hresult : answer.result with
    | error e =>
      have hacts := hexecuted [] _ (.thrown e hresult)
      rw [List.append_nil] at hacts
      exact hacts
    | ok outcome =>
      refine logs_step (fun e => ?_) fun _ => ?_
      · exact hexecuted _ _ (.unrecorded outcome e hresult)
      · exact hexecuted _ _ (.recorded outcome hresult)

/-! ## Steps that verify -/

/-- A verification ends with no completion exactly when it passed. -/
inductive Verifies (job : AcceptedExecutionJob) (ordinal : ℕ) (claimIds : List String)
    (log : RuntimeLog) : RuntimeLog → Except Thrown (Option ExecutionCompletion) → Prop where
  | unverified (log' : RuntimeLog) (r : Except Thrown (Option ExecutionCompletion))
    (h : QuietAfter log log') (hr : (∃ e, r = .error e) ∨
      ∃ f : FindingEnvelope, r = .ok (some ⟨job.jobId, job.runId, .finding f.toValue⟩)) :
    Verifies job ordinal claimIds log log' r
  | passed (log' : RuntimeLog) (r : Except Thrown (Option ExecutionCompletion))
    (h : QuietAfter (log ++ [⟨.verify ordinal claimIds, .ok .passed⟩]) log')
    (hr : (∃ e, r = .error e) ∨ r = .ok none) : Verifies job ordinal claimIds log log' r

theorem logs_verify (ordinal stepIndex : ℕ) (claimIds before after : List String) :
    Logs (Verifies job ordinal claimIds log) log
      (verify job ordinal stepIndex claimIds before after) := by
  refine logs_step (fun e => .unverified _ _ ((QuietAfter.refl log).snoc ⟨rfl, rfl, rfl, rfl⟩)
    (.inl ⟨e, rfl⟩)) ?_
  intro (verification : VerificationResult)
  cases verification with
  | passed =>
    have hq := QuietAfter.refl (log ++ [⟨.verify ordinal claimIds, .ok .passed⟩])
    refine logs_step (fun e => .passed _ _ (hq.snoc ⟨rfl, rfl, rfl, rfl⟩) (.inl ⟨e, rfl⟩)) ?_
    intro _
    exact .passed _ _ (hq.snoc ⟨rfl, rfl, rfl, rfl⟩) (.inr rfl)
  | failed summary severity claims =>
    have hq : QuietAfter log (log ++
        [⟨.verify ordinal claimIds, .ok (.failed summary severity claims)⟩]) :=
      (QuietAfter.refl log).snoc ⟨rfl, rfl, rfl, rfl⟩
    refine logs_step (fun e => .unverified _ _ (hq.snoc ⟨rfl, rfl, rfl, rfl⟩) (.inl ⟨e, rfl⟩)) ?_
    intro _
    have hq := hq.snoc (c := ⟨.append ordinal (traceIndex job stepIndex)
      (.verification (.failed summary severity claims)), .ok ()⟩) ⟨rfl, rfl, rfl, rfl⟩
    refine logs_step (fun e => .unverified _ _ (hq.snoc ⟨rfl, rfl, rfl, rfl⟩) (.inl ⟨e, rfl⟩)) ?_
    intro _
    exact .unverified _ _ (hq.snoc ⟨rfl, rfl, rfl, rfl⟩) (.inr ⟨_, rfl⟩)

end Job

end Qualigence.Kernel
