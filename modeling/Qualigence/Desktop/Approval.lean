import Qualigence.Desktop.Permit
import Qualigence.Foundation.History

/-! # Human approvals over a channel

The approval gate asks a human through a channel and waits for a decision until a deadline. The
human decides on one particular request, but the channel carries the outcome only: a decision that
comes after its request has timed out stays in the channel, and answers the next request.
-/

namespace Qualigence.Desktop

open Foundation

/-- A decision of the human on one of the requests that were put to the channel. -/
structure HumanDecision where
  request : ℕ
  outcome : ApprovalOutcome
  arrivedAt : ℕ
  deriving DecidableEq

structure ChannelApprover where
  deadline : ℕ
  queue : List HumanDecision
  connected : Bool
  deriving DecidableEq

/-- What `recv_timeout` gives without waiting; a queue without a sender fails closed. -/
def ChannelApprover.receive (c : ChannelApprover) : Option ApprovalOutcome × ChannelApprover :=
  match c.queue with
  | decision :: queue => (some decision.outcome, { c with queue })
  | [] =>
    if c.connected = false then (some .denied, c)
    else if c.deadline = 0 then (some .timedOut, c)
    else (none, c)

/-- A call that waits, with the number of its request and the time at which it times out. -/
structure WaitingCall where
  request : ApprovalRequest
  ordinal : ℕ
  expiresAt : ℕ
  deriving DecidableEq

/-- A call that has returned, with the decisions that had arrived by then. -/
structure ReturnedCall extends WaitingCall where
  decision : Decision
  arrived : List HumanDecision
  deriving DecidableEq

/-- The gate with its channel at a time. A call holds the gate until it returns. -/
structure ApprovalGate where
  state : ApprovalState ChannelApprover
  clock : ℕ
  asked : ℕ
  waiting : Option WaitingCall
  arrived : List HumanDecision
  returned : List ReturnedCall
  deriving DecidableEq

inductive GateEvent where
  | decide (request : ApprovalRequest)
  | arrive (request : ℕ) (outcome : ApprovalOutcome)
  | elapse (duration : ℕ)
  | disconnect
  | pause
  | resume
  | emergencyStop
  | reset
  deriving DecidableEq

namespace ApprovalGate

variable (g : ApprovalGate)

def new (runId : String) (deadline : ℕ) : ApprovalGate where
  state := ⟨runId, .new, ⟨deadline, [], true⟩⟩
  clock := 0
  asked := 0
  waiting := none
  arrived := []
  returned := []

/-- A call returns, with what the approver gave. -/
def answer (call : WaitingCall) (outcome : ApprovalOutcome) : ApprovalGate :=
  { g with
    waiting := none
    returned := g.returned ++ [{ call with
      decision := (g.state.decide ⟨fun approver _ => (outcome, approver)⟩ call.request).1
      arrived := g.arrived }] }

/-- The call reaches the human. -/
def Asks (request : ApprovalRequest) : Prop :=
  g.state.control.state = .active ∧ request.risk.policy = .requiresApproval

instance (request : ApprovalRequest) : Decidable (g.Asks request) :=
  inferInstanceAs (Decidable (_ ∧ _))

def call (request : ApprovalRequest) : WaitingCall :=
  ⟨request, g.asked, g.clock + g.state.approver.deadline⟩

/-- A request that the human is asked for, until the call returns or waits. -/
def ask (request : ApprovalRequest) : ApprovalGate :=
  let (outcome, approver) := g.state.approver.receive
  let asked := { g with asked := g.asked + 1, state := { g.state with approver } }
  match outcome with
  | some outcome => asked.answer (g.call request) outcome
  | none => { asked with waiting := some (g.call request) }

/-- The approver has no say in a call that does not reach the human. -/
def decide (request : ApprovalRequest) : ApprovalGate :=
  if g.Asks request then g.ask request else g.answer (g.call request) .timedOut

/-- A decision on a request that was put to the channel arrives: it is received by the call that
waits, or queued. -/
def arrive (request : ℕ) (outcome : ApprovalOutcome) : ApprovalGate :=
  let decision : HumanDecision := ⟨request, outcome, g.clock⟩
  let heard := { g with arrived := g.arrived ++ [decision] }
  match g.waiting with
  | some call => heard.answer call outcome
  | none => { heard with state.approver.queue := g.state.approver.queue ++ [decision] }

def elapse (duration : ℕ) : ApprovalGate :=
  let later := { g with clock := g.clock + duration }
  match g.waiting with
  | some call => if call.expiresAt ≤ later.clock then later.answer call .timedOut else later
  | none => later

def disconnect : ApprovalGate :=
  let closed := { g with state.approver.connected := false }
  match g.waiting with
  | some call => closed.answer call .denied
  | none => closed

/-- Nobody calls the gate while it waits, and nobody decides on a request that was not made. -/
def next (g : ApprovalGate) : GateEvent → ApprovalGate
  | .decide request => if g.waiting = none then g.decide request else g
  | .arrive request outcome =>
    if g.state.approver.connected ∧ request < g.asked then g.arrive request outcome else g
  | .elapse duration => g.elapse duration
  | .disconnect => g.disconnect
  | .pause => if g.waiting = none then { g with state.control := g.state.control.pause } else g
  | .resume => if g.waiting = none then { g with state.control := g.state.control.resume } else g
  | .emergencyStop =>
    if g.waiting = none then { g with state.control := g.state.control.emergencyStop } else g
  | .reset => if g.waiting = none then { g with state.control := g.state.control.reset } else g

end ApprovalGate

/-- An approval that the human was to give was given for this request, before its deadline. -/
def ReturnedCall.Own (c : ReturnedCall) : Prop :=
  c.decision = .approved → c.request.risk.policy = .requiresApproval →
    ∃ d ∈ c.arrived, d.request = c.ordinal ∧ d.outcome = .approved ∧ d.arrivedAt < c.expiresAt

namespace ApprovalGate

variable {g : ApprovalGate}

/-- No approval of another request is received: a request is put to a channel whose first decision
is no approval, and a call that waits receives no approval of another request. -/
def Fresh (g : ApprovalGate) : GateEvent → Prop
  | .decide request => g.waiting = none → g.Asks request →
      ∀ d, g.state.approver.queue.head? = some d → d.outcome ≠ .approved
  | .arrive request outcome => ∀ call, g.waiting = some call → g.state.approver.connected →
      request < g.asked → outcome = .approved → request = call.ordinal
  | _ => True

/-- The decisions are on requests that were made, and a call that waits has none. -/
structure Inv (g : ApprovalGate) : Prop where
  made : ∀ d ∈ g.arrived, d.request < g.asked
  queued : ∀ d ∈ g.state.approver.queue, d ∈ g.arrived
  waits : ∀ call, g.waiting = some call → g.Asks call.request ∧ call.ordinal + 1 = g.asked ∧
    g.clock < call.expiresAt ∧ ∀ d ∈ g.arrived, d.request < call.ordinal

theorem inv_new (runId : String) (deadline : ℕ) : (new runId deadline).Inv where
  made d hd := by simp [new] at hd
  queued d hd := by simp [new] at hd
  waits call h := by simp [new] at h

/-- The decision on a request that the human was asked for is the outcome. -/
theorem decide_of_asks {request : ApprovalRequest} (h : g.Asks request)
    (outcome : ApprovalOutcome) :
    (g.state.decide ⟨fun approver _ => (outcome, approver)⟩ request).1 = .approved ↔
      outcome = .approved := by
  unfold ApprovalState.decide
  rw [h.1, h.2]
  cases outcome <;> simp

/-! ## Steps -/

/-- What a call that returns adds, and whether its decision is its own. -/
theorem own_answer {call : WaitingCall} {outcome : ApprovalOutcome} (h : g.Asks call.request) :
    (∃ c, (g.answer call outcome).returned = g.returned ++ [c] ∧ (c.Own ↔ (outcome = .approved →
      ∃ d ∈ g.arrived, d.request = call.ordinal ∧ d.outcome = .approved ∧
        d.arrivedAt < call.expiresAt))) := by
  refine ⟨_, rfl, ?_⟩
  rw [ReturnedCall.Own]
  dsimp only
  rw [decide_of_asks h]
  constructor
  · exact fun hown ho => hown ho h.2
  · exact fun hown ho _ => hown ho

theorem receive_cases (c : ChannelApprover) :
    (∃ d queue, c.queue = d :: queue ∧ c.receive = (some d.outcome, { c with queue })) ∨
    (c.queue = [] ∧ ∃ outcome, outcome ≠ .approved ∧ c.receive = (some outcome, c)) ∨
    (c.queue = [] ∧ 0 < c.deadline ∧ c.receive = (none, c)) := by
  unfold ChannelApprover.receive
  cases hq : c.queue with
  | cons d queue => exact .inl ⟨d, queue, rfl, rfl⟩
  | nil =>
    right
    dsimp only
    by_cases hc : c.connected = false
    · rw [if_pos hc]
      exact .inl ⟨rfl, .denied, nofun, rfl⟩
    · rw [if_neg hc]
      by_cases hd : c.deadline = 0
      · rw [if_pos hd]
        exact .inl ⟨rfl, .timedOut, nofun, rfl⟩
      · rw [if_neg hd]
        exact .inr ⟨rfl, Nat.pos_of_ne_zero hd, rfl⟩

/-- An event keeps the invariant, and the calls that return with it have decisions of their own
exactly when the event is fresh. -/
def Lawful (g g' : ApprovalGate) (fresh : Prop) : Prop :=
  g'.Inv ∧ ∃ calls, g'.returned = g.returned ++ calls ∧ ((∀ c ∈ calls, c.Own) ↔ fresh)

theorem lawful_of_same {g' : ApprovalGate} {fresh : Prop} (hi : g'.Inv)
    (hr : g'.returned = g.returned) (hf : fresh) : g.Lawful g' fresh :=
  ⟨hi, [], by rw [hr, List.append_nil], fun _ => hf, fun _ c hc => absurd hc List.not_mem_nil⟩

theorem lawful_answer {g' : ApprovalGate} {call : WaitingCall} {outcome : ApprovalOutcome}
    {fresh : Prop} (h : g'.Asks call.request) (hr : g'.returned = g.returned)
    (hmade : ∀ d ∈ g'.arrived, d.request < g'.asked)
    (hqueued : ∀ d ∈ g'.state.approver.queue, d ∈ g'.arrived)
    (hown : (outcome = .approved → ∃ d ∈ g'.arrived, d.request = call.ordinal ∧
      d.outcome = .approved ∧ d.arrivedAt < call.expiresAt) ↔ fresh) :
    g.Lawful (g'.answer call outcome) fresh := by
  obtain ⟨c, hc, hciff⟩ := @own_answer _ _ outcome h
  refine ⟨⟨hmade, hqueued, nofun⟩, [c], by rw [hc, hr], ?_⟩
  rw [List.forall_mem_singleton, hciff, hown]

theorem lawful_ask (h : g.Inv) {request : ApprovalRequest} (ha : g.Asks request) :
    g.Lawful (g.ask request) (∀ d, g.state.approver.queue.head? = some d → d.outcome ≠ .approved) := by
  have hmade : ∀ d ∈ g.arrived, d.request < g.asked + 1 := fun d hd => by
    have := h.made d hd
    omega
  have hother : ¬ ∃ d ∈ g.arrived, d.request = g.asked ∧ d.outcome = .approved ∧
      d.arrivedAt < (g.call request).expiresAt := by
    rintro ⟨d, hd, hn, -⟩
    have := h.made d hd
    omega
  unfold ask
  rcases receive_cases g.state.approver with ⟨d, queue, hq, hr⟩ | ⟨hq, outcome, ho, hr⟩ |
    ⟨hq, hpos, hr⟩
  · rw [hr]
    apply lawful_answer
    · exact ha
    · rfl
    · exact hmade
    · intro d' hd'
      exact h.queued d' (by rw [hq]; exact List.mem_cons_of_mem d hd')
    · rw [hq, List.head?_cons]
      constructor
      · rintro hown _ ⟨⟩ ho
        exact hother (hown ho)
      · exact fun hn ho => absurd ho (hn d rfl)
  · rw [hr]
    apply lawful_answer
    · exact ha
    · rfl
    · exact hmade
    · exact h.queued
    · rw [hq]
      exact ⟨fun _ => nofun, fun _ hn => absurd hn ho⟩
  · rw [hr]
    refine lawful_of_same ⟨hmade, h.queued, ?_⟩ rfl (by rw [hq]; nofun)
    rintro _ ⟨⟩
    exact ⟨ha, rfl, Nat.lt_add_of_pos_right hpos, h.made⟩

theorem lawful_arrive (h : g.Inv) {request : ℕ} {outcome : ApprovalOutcome}
    (hc : g.state.approver.connected) (hn : request < g.asked) :
    g.Lawful (g.arrive request outcome) (g.Fresh (.arrive request outcome)) := by
  have hmade : ∀ d ∈ g.arrived ++ [⟨request, outcome, g.clock⟩], d.request < g.asked := by
    intro d hd
    rcases List.mem_append.mp hd with hd | hd
    · exact h.made d hd
    · rw [List.mem_singleton.mp hd]
      exact hn
  unfold arrive
  cases hw : g.waiting with
  | none =>
    refine lawful_of_same ⟨hmade, fun d hd => ?_, nofun⟩ rfl fun call hcall => ?_
    · rcases List.mem_append.mp hd with hd | hd
      · exact List.mem_append_left _ (h.queued d hd)
      · exact List.mem_append_right _ hd
    · rw [hw] at hcall
      cases hcall
  | some call =>
    obtain ⟨ha, hord, hclock, hold⟩ := h.waits call hw
    apply lawful_answer
    · exact ha
    · rfl
    · exact hmade
    · exact fun d hd => List.mem_append_left _ (h.queued d hd)
    · constructor
      · rintro hown call' hcall' - - rfl
        cases hw.symm.trans hcall'
        obtain ⟨d, hd, hd', -⟩ := hown rfl
        rcases List.mem_append.mp hd with hd | hd
        · have := hold d hd
          omega
        · rw [List.mem_singleton.mp hd] at hd'
          exact hd'
      · rintro hf rfl
        exact ⟨_, List.mem_append_right _ List.mem_cons_self, hf call hw hc hn rfl, rfl, hclock⟩

theorem lawful_elapse (h : g.Inv) (duration : ℕ) : g.Lawful (g.elapse duration) True := by
  unfold elapse
  cases hw : g.waiting with
  | none =>
    exact lawful_of_same ⟨h.made, h.queued, nofun⟩ rfl trivial
  | some call =>
    obtain ⟨ha, hord, hclock, hold⟩ := h.waits call hw
    dsimp only
    split
    · exact lawful_answer ha rfl h.made h.queued ⟨fun _ => trivial, fun _ => nofun⟩
    · next hlt =>
      refine lawful_of_same ⟨h.made, h.queued, fun call' hcall => ?_⟩ rfl trivial
      cases hcall
      exact ⟨ha, hord, not_le.mp hlt, hold⟩

theorem lawful_disconnect (h : g.Inv) : g.Lawful g.disconnect True := by
  unfold disconnect
  cases hw : g.waiting with
  | none =>
    exact lawful_of_same ⟨h.made, h.queued, nofun⟩ rfl trivial
  | some call =>
    obtain ⟨ha, -⟩ := h.waits call hw
    exact lawful_answer ha rfl h.made h.queued ⟨fun _ => trivial, fun _ => nofun⟩

/-- A latch is set while nobody waits. -/
theorem lawful_control (h : g.Inv) (hw : g.waiting = none) (control : SessionControl) :
    g.Lawful { g with state.control := control } True := by
  refine lawful_of_same ⟨h.made, h.queued, fun call hcall => ?_⟩ rfl trivial
  rw [hw] at hcall
  cases hcall

/-- A call that does not reach the human needs no approval. -/
theorem lawful_unasked (h : g.Inv) {request : ApprovalRequest} (ha : ¬ g.Asks request) : g.Lawful (g.answer (g.call request) .timedOut) True := by
  refine ⟨⟨h.made, h.queued, nofun⟩, _, rfl, fun _ => trivial, fun _ c hc => ?_⟩
  rw [List.mem_singleton.mp hc]
  intro hd hp
  refine absurd ⟨?_, hp⟩ ha
  exact (decide_eq_approved _ hd).1

theorem lawful_next (h : g.Inv) (e : GateEvent) : g.Lawful (g.next e) (g.Fresh e) := by
  cases e with
  | decide request =>
    unfold next Fresh
    dsimp only
    by_cases hw : g.waiting = none
    · rw [if_pos hw]
      unfold ApprovalGate.decide
      by_cases ha : g.Asks request
      · rw [if_pos ha]
        simpa only [hw, ha, true_imp_iff] using lawful_ask h ha
      · rw [if_neg ha]
        simpa only [ha, false_imp_iff, implies_true] using lawful_unasked h ha
    · rw [if_neg hw]
      exact lawful_of_same h rfl fun hn => absurd hn hw
  | arrive request outcome =>
    unfold next
    dsimp only
    split
    · next hc => exact lawful_arrive h hc.1 hc.2
    · next hc => exact lawful_of_same h rfl fun call _ hconn hn => absurd ⟨hconn, hn⟩ hc
  | elapse duration => exact lawful_elapse h duration
  | disconnect => exact lawful_disconnect h
  | pause =>
    unfold next
    dsimp only
    split
    · next hw => exact lawful_control h hw _
    · exact lawful_of_same h rfl trivial
  | resume =>
    unfold next
    dsimp only
    split
    · next hw => exact lawful_control h hw _
    · exact lawful_of_same h rfl trivial
  | emergencyStop =>
    unfold next
    dsimp only
    split
    · next hw => exact lawful_control h hw _
    · exact lawful_of_same h rfl trivial
  | reset =>
    unfold next
    dsimp only
    split
    · next hw => exact lawful_control h hw _
    · exact lawful_of_same h rfl trivial

/-! ## Histories -/

theorem own_foldl_iff (h : g.Inv) {events : List GateEvent} :
    (∀ c ∈ (events.foldl next g).returned, c.Own) ↔
      (∀ c ∈ g.returned, c.Own) ∧ Meets next Fresh g events := by
  have hstep : ∀ (g : ApprovalGate) e, g.Inv → (next g e).Inv ∧ ∃ calls,
      (next g e).returned = g.returned ++ calls ∧ ((∀ c ∈ calls, c.Own) ↔ Fresh g e) :=
    fun _ e hg => lawful_next hg e
  exact forall_log_iff hstep h

/-- Whatever is asked and decided at whatever times, every approval that a human is to give was
given for its own request before its deadline, exactly when no request is put to a channel with an
approval at its head and no approval of an earlier request arrives while a later one waits. -/
theorem approvals_answer_own_request_iff (runId : String) (deadline : ℕ)
    (events : List GateEvent) :
    (∀ c ∈ (events.foldl next (new runId deadline)).returned, c.Own) ↔
      Meets next Fresh (new runId deadline) events := by
  rw [own_foldl_iff (inv_new runId deadline)]
  refine ⟨fun hall => hall.2, fun hall => ⟨?_, hall⟩⟩
  intro c hc
  simp [new] at hc

def sampleRequest (actionId : String) : ApprovalRequest :=
  ⟨actionId, "session", "run", actionId, .destructive, "summary"⟩

/-- The human approves the first request when it has timed out, and the second one is approved on the
spot. -/
theorem late_approval_answers_next_request :
    ∃ c ∈ ([GateEvent.decide (sampleRequest "first"), .elapse 5, .arrive 0 .approved,
        .decide (sampleRequest "second")].foldl next (new "run" 5)).returned,
      c.request = sampleRequest "second" ∧ c.decision = .approved ∧ ¬ c.Own := by
  refine ⟨⟨⟨sampleRequest "second", 1, 10⟩, .approved, [⟨0, .approved, 5⟩]⟩, by decide, rfl, rfl, ?_⟩
  intro hown
  obtain ⟨d, hd, hn, -⟩ := hown rfl rfl
  rw [List.mem_singleton.mp hd] at hn
  cases hn

end ApprovalGate

end Qualigence.Desktop
