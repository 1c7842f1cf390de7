import Qualigence.Desktop.Execution

/-! # What is known of the outcome of an action

Once an action is handed to the worker it may have taken effect, whatever happens then. The response
is what the worker reported of the action or says that the outcome is unknown, except that a
cancellation or an emergency stop seen meanwhile is answered as an action that was stopped.
-/

namespace Qualigence.Desktop.Execution

open Foundation Program

/-- What a thread has seen: that it handed the action to the worker, what the worker answered, and,
after the action was handed over, a cancellation or a stop, and a poisoned lock. -/
structure Observed where
  handed : Bool
  report : Option WorkerResponse
  stopped : Bool
  poisoned : Bool

namespace Observed

def start : Observed := ⟨false, none, false, false⟩

def note (m : Observed) : (op : BrokerOp) → Except Waiting (brokerSignature.Reply op) → Observed
  | .writeFrame _, _ => { m with handed := true }
  | .receive, .ok (.response response) => { m with report := some response }
  | .isCancelled _, .ok true => { m with stopped := m.handed }
  | .companionState _, .ok (some .emergencyStopped) => { m with stopped := m.handed }
  | .companionState _, .ok none => { m with poisoned := m.handed }
  | _, _ => m

/-- The response is the outcome, or the error, that the worker reported for the action. -/
def Reported (m : Observed) (response : ActionExecuteResponse) : Prop :=
  match m.report with
  | some (.executed outcome) => response = .outcome outcome
  | some (.error message) => response = .error "ApplicationError" message
  | _ => False

/-- The worker answered an execution request with something else. -/
def Unexpected (m : Observed) : Prop := m.report = some .captured ∨ m.report = some .pong

end Observed

def outcomeUnknown : ActionExecuteResponse := .error "ActionOutcomeUnknown" "ActionOutcomeUnknown"

def stoppedOutcome : ActionExecuteResponse := .outcome (.failed "EmergencyStopped")

/-- Whatever the replies are, a thread ends in `Q`, unless it is still waiting. -/
abbrev Observes {α : Type} (Q : Observed → α → Prop) : Observed → Broker α → Prop :=
  Watched Observed.note (fun _ _ => True) fun m result => ∀ a, result = .ok a → Q m a

variable {α β : Type} {Q : Observed → α → Prop} {m : Observed}

theorem observes_pure {a : α} (h : Q m a) : Observes Q m (.pure a) := by
  rintro _ ⟨⟩
  exact h

theorem observes_throw {e : Waiting} : Observes Q m (.throw e) := nofun

theorem observes_step {op : BrokerOp} {f : brokerSignature.Reply op → Broker α}
    (h : ∀ a, Observes Q (m.note op (.ok a)) (f a)) :
    Observes Q m ((perform op).bind f) := watched_step trivial (fun _ => nofun) h

theorem observes_bind {p : Broker β} {f : β → Broker α} (mid : Observed → β → Prop)
    (hp : Observes mid m p) (hf : ∀ m b, mid m b → Observes Q m (f b)) :
    Observes Q m (p.bind f) :=
  watched_bind _ hp (fun m a h => hf m a (h a rfl)) fun _ _ _ => nofun

/-! ## Before the action is handed over -/

theorem handed_lockSupervisorUntil (r : ExecutionRequest) (rounds : ℕ) (h : m.handed = false) :
    Observes (fun m _ => m.handed = false) m (lockSupervisorUntil r rounds) := by
  induction rounds generalizing m with
  | zero => exact observes_throw
  | succ rounds ih =>
    refine observes_step fun (cancelled : Bool) => ?_
    cases cancelled with
    | true => exact observes_pure h
    | false =>
      refine observes_step fun (live : Bool) => ?_
      cases live with
      | false => exact observes_pure h
      | true =>
        refine observes_step fun (lock : TryLock) => ?_
        cases lock with
        | acquired => exact observes_pure h
        | wouldBlock => exact ih h
        | poisoned => exact observes_pure h

theorem handed_cancellationErrorBeforePermit (r : ExecutionRequest) (h : m.handed = false) :
    Observes (fun m _ => m.handed = false) m (cancellationErrorBeforePermit r) := by
  refine observes_step fun (state : Option ControlState) => ?_
  cases state with
  | none => exact observes_pure h
  | some state => cases state <;> exact observes_pure h

/-! ## The answer of the worker -/

/-- How the answer of a worker relates to what was seen. -/
def Answered (m : Observed) : Except WorkerError WorkerResponse → Prop
  | .ok response => m.report = some response
  | .error .cancelled => m.handed = true → m.stopped = true
  | .error .spawn => m.handed = false
  | .error _ => True

theorem answered_awaitResponse (r : ExecutionRequest) (rounds : ℕ) (h : m.handed = true) :
    Observes Answered m (awaitResponse r rounds) := by
  induction rounds generalizing m with
  | zero => exact observes_throw
  | succ rounds ih =>
    refine observes_step fun (cancelled : Bool) => ?_
    cases cancelled with
    | true => exact observes_step fun _ => observes_pure fun _ => h
    | false =>
      refine observes_step fun (live : Bool) => ?_
      cases live with
      | false => exact observes_step fun _ => observes_pure trivial
      | true =>
        refine observes_step fun (received : Received) => ?_
        cases received with
        | response response =>
          refine observes_step fun (cancelled : Bool) => ?_
          cases cancelled with
          | true => exact observes_step fun _ => observes_pure fun _ => h
          | false => exact observes_pure rfl
        | closed => exact observes_pure trivial
        | corrupt => exact observes_pure trivial
        | timeout => exact ih h
        | disconnected => exact observes_pure trivial

theorem answered_workerRequest (r : ExecutionRequest) (rounds : ℕ) (h : m.handed = false) :
    Observes Answered m (workerRequest r rounds) := by
  have hstopped : m.handed = true → m.stopped = true := fun ht => nomatch h.symm.trans ht
  refine observes_step fun (cancelled : Bool) => ?_
  cases cancelled with
  | true => exact observes_pure fun ht => ht
  | false =>
  refine observes_step fun (live : Bool) => ?_
  cases live with
  | false => exact observes_pure trivial
  | true =>
  refine observes_step fun (serialized : Bool) => ?_
  cases serialized with
  | false => exact observes_pure trivial
  | true =>
  refine observes_step fun (cancelled : Bool) => ?_
  cases cancelled with
  | true => exact observes_pure fun ht => ht
  | false =>
  refine observes_step fun (live : Bool) => ?_
  cases live with
  | false => exact observes_pure trivial
  | true =>
  refine observes_step fun (written : Bool) => ?_
  cases written with
  | false => exact observes_pure trivial
  | true =>
  refine observes_step fun (flushed : Bool) => ?_
  cases flushed with
  | false => exact observes_pure trivial
  | true => exact answered_awaitResponse r rounds rfl

theorem answered_dispatchUntil (r : ExecutionRequest) (rounds : ℕ) (h : m.handed = false) :
    Observes Answered m (dispatchUntil r rounds) := by
  refine observes_step fun (cancelled : Bool) => ?_
  cases cancelled with
  | true => exact observes_pure fun ht => ht
  | false =>
  refine observes_step fun (spawned : Bool) => ?_
  cases spawned with
  | false => exact observes_pure h
  | true =>
  refine observes_step fun (cancelled : Bool) => ?_
  cases cancelled with
  | true => exact observes_pure fun ht => ht
  | false =>
  refine observes_step fun (live : Bool) => ?_
  cases live with
  | false => exact observes_pure trivial
  | true =>
  refine observes_bind Answered (answered_workerRequest r rounds h) fun m answer ha => ?_
  cases answer with
  | ok response => exact observes_pure ha
  | error error => exact observes_step fun _ => observes_pure ha

/-- How what the supervisor makes of the answer relates to what was seen. -/
def Mapped (m : Observed) : Except UiaError ActionOutcomeReport → Prop
  | .ok outcome => m.report = some (.executed outcome)
  | .error (.reported message) => m.report = some (.error message)
  | .error .emergencyStopped => m.handed = true → m.stopped = true
  | .error .actionOutcomeUnknown => True
  | .error .workerUnavailable => m.handed = false
  | .error .protocolCorruption => m.Unexpected
  | .error .targetUnresponsive => False

theorem mapped_executeUntil (r : ExecutionRequest) (rounds : ℕ) (h : m.handed = false) :
    Observes Mapped m (executeUntil r rounds) := by
  refine observes_bind Answered (answered_dispatchUntil r rounds h) fun m answer ha => ?_
  cases answer with
  | ok response =>
    cases response with
    | executed outcome => exact observes_pure ha
    | error message => exact observes_pure ha
    | captured => exact observes_step fun _ => observes_pure (Or.inl ha)
    | pong => exact observes_step fun _ => observes_pure (Or.inr ha)
  | error error =>
    cases error with
    | timeout => exact observes_pure trivial
    | cancelled => exact observes_pure ha
    | closed => exact observes_pure trivial
    | corrupt => exact observes_pure trivial
    | spawn => exact observes_pure ha

/-! ## The response -/

/-- Once the action was handed over, the response is the outcome that the worker reported, or it is
unknown, or the action is answered as stopped after a cancellation or a stop was seen. Nothing is
said of a worker that answers with something else, nor of a poisoned lock. -/
def Known (m : Observed) (result : Except DesktopActionError ActionOutcomeReport) : Prop :=
  m.handed = true → ¬ m.Unexpected → m.poisoned = false →
    m.Reported (writeActionExecuteResult result) ∨
      writeActionExecuteResult result = outcomeUnknown ∨
      (m.stopped = true ∧ writeActionExecuteResult result = stoppedOutcome)

theorem known_of_not_handed {result : Except DesktopActionError ActionOutcomeReport}
    (h : m.handed = false) : Known m result := fun ht => nomatch h.symm.trans ht

theorem known_of_mapped {error : UiaError} (h : Mapped m (.error error)) :
    Known m (.error (.uia error)) := by
  intro hhanded hexpected _
  cases error with
  | targetUnresponsive => cases h
  | actionOutcomeUnknown => exact Or.inr (Or.inl rfl)
  | emergencyStopped => exact Or.inr (Or.inr ⟨h hhanded, rfl⟩)
  | workerUnavailable => cases h.symm.trans hhanded
  | protocolCorruption => exact absurd h hexpected
  | reported message =>
    have hreport : m.report = some (.error message) := h
    left
    simp only [Observed.Reported, hreport]
    rfl

theorem known_executeLocked (r : ExecutionRequest) (rounds : ℕ) (h : m.handed = false) :
    Observes Known m (executeLocked r rounds) := by
  refine observes_step fun (cancelled : Bool) => ?_
  cases cancelled with
  | true =>
    exact observes_bind _ (handed_cancellationErrorBeforePermit r h)
      fun m error hm => observes_pure (known_of_not_handed hm)
  | false =>
  refine observes_step fun (live : Bool) => ?_
  cases live with
  | false => exact observes_pure (known_of_not_handed h)
  | true =>
  refine observes_step fun (prepared : Except DesktopActionError Unit) => ?_
  cases prepared with
  | error error => exact observes_pure (known_of_not_handed h)
  | ok _ =>
  refine observes_step fun (cancelled : Bool) => ?_
  cases cancelled with
  | true => exact observes_pure (known_of_not_handed h)
  | false =>
  refine observes_step fun (live : Bool) => ?_
  cases live with
  | false => exact observes_pure (known_of_not_handed h)
  | true =>
  refine observes_bind Mapped (mapped_executeUntil r rounds h) fun m outcome hm => ?_
  cases outcome with
  | error error => exact observes_pure (known_of_mapped hm)
  | ok outcome =>
  have hreported : m.Reported (.outcome outcome) := by
    have hreport : m.report = some (.executed outcome) := hm
    simp only [Observed.Reported, hreport]
  refine observes_step fun (cancelled : Bool) => ?_
  cases cancelled with
  | true => exact observes_pure fun hhanded _ _ => Or.inr (Or.inr ⟨hhanded, rfl⟩)
  | false =>
  refine observes_step fun (state : Option ControlState) => ?_
  cases state with
  | none => exact observes_pure fun hhanded _ hpoisoned => nomatch hhanded.symm.trans hpoisoned
  | some state =>
    cases state with
    | emergencyStopped => exact observes_pure fun hhanded _ _ => Or.inr (Or.inr ⟨hhanded, rfl⟩)
    | active => exact observes_pure fun _ _ _ => Or.inl hreported
    | paused => exact observes_pure fun _ _ _ => Or.inl hreported

/-- Whatever the worker, the deadline and the cancellations do, the response says no more of an
action that was handed over than is known. -/
theorem response_is_known (r : ExecutionRequest) (rounds : ℕ) :
    Observes Known .start (executeDesktopActionRequestBeforeDeadline r rounds) := by
  refine observes_bind _ (handed_lockSupervisorUntil r rounds rfl) fun m lock hm => ?_
  cases lock with
  | ok _ =>
    refine observes_bind _ (known_executeLocked r rounds hm) fun m result hresult => ?_
    exact observes_step fun _ => observes_pure hresult
  | error error =>
    cases error with
    | timeout => exact observes_pure (known_of_not_handed hm)
    | cancelled =>
      exact observes_bind _ (handed_cancellationErrorBeforePermit r hm)
        fun m error hm => observes_pure (known_of_not_handed hm)
    | closed => exact observes_pure (known_of_not_handed hm)
    | corrupt => exact observes_pure (known_of_not_handed hm)
    | spawn => exact observes_pure (known_of_not_handed hm)

/-! ## A stop after the action was handed over -/

def sampleExecution : ExecutionRequest :=
  ⟨0, ⟨"s", ⟨.click, "a", "g", "n", .uia, some "Invoke"⟩,
    ⟨"t", "bg==", "s", "r", "a", "d", "g", "d", "p", .normal, "i", "e", none⟩, none, 1000⟩, 1000, 0⟩

/-- The cancellation comes after the frame was written and before the worker answers. The worker may
have clicked, and the response says that the action failed. -/
theorem stopped_outcome_is_not_known : ¬ ∀ r rounds,
    Observes (fun m result => m.handed = true → m.Reported (writeActionExecuteResult result) ∨
      writeActionExecuteResult result = outcomeUnknown) .start
      (executeDesktopActionRequestBeforeDeadline r rounds) := by
  intro h
  have hlock := (((h sampleExecution 1).2 (.ok false)).2 (.ok true)).2 (.ok TryLock.acquired)
  have hprepare := ((hlock.2 (.ok false)).2 (.ok true)).2 (.ok (.ok ()))
  have hspawn := ((((hprepare.2 (.ok false)).2 (.ok true)).2 (.ok false)).2 (.ok true))
  have hrequest := (((hspawn.2 (.ok false)).2 (.ok true)).2 (.ok false)).2 (.ok true)
  have hwrite := (((hrequest.2 (.ok true)).2 (.ok false)).2 (.ok true)).2 (.ok true)
  have hcancel := ((hwrite.2 (.ok true)).2 (.ok true)).2 (.ok ())
  have hend := (hcancel.2 (.ok ())).2 (.ok ()) _ rfl rfl
  rcases hend with hreported | hunknown
  · exact hreported
  · cases hunknown

end Qualigence.Desktop.Execution
