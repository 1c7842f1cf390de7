import Qualigence.Desktop.PipeClient
import Qualigence.Foundation.History
import Qualigence.Foundation.Program

/-! # Executions whose outcome is not known

An execution whose frame was handed to the socket, and that no response of a definite outcome
answered, is to fail as an action of unknown outcome. The client says so for its own errors. An
error of the contract that the bytes of the Companion raise, the error of a refused handshake and
an error that a write throws reject the execution as they are.
-/

namespace Qualigence.Desktop.Companion

open Protocol Foundation

/-! ## What is claimed of an execution -/

/-- A response from which the outcome of the action is known. -/
def CompanionResponse.Definite (response : CompanionResponse) : Prop :=
  match response.body with
  | .ok _ => True
  | .error error => error.code ≠ .actionOutcomeUnknown ∧
      NamedPipeCompanionClient.protocolCode error.code = none

/-- A dispatched execution was answered with a definite outcome, or it fails as one of unknown
outcome. -/
def EndedCall.Honest (e : EndedCall) : Prop :=
  e.type = .actionExecute → e.dispatched = true →
    (∃ response, e.answer = some response ∧ response.Definite) ∨
      ∃ message, e.settlement.execute = .actionOutcomeUnknown message

namespace NamedPipeCompanionClient

/-- Every call that was made waits, is pending or has ended, and is one of these once. -/
def Accounted (c : NamedPipeCompanionClient) : Prop :=
  ∀ call, (c.waiting.map (·.call)).count call + (c.pending.map (·.call)).count call +
    (c.ended.map (·.call)).count call = if call < c.calls then 1 else 0

/-! ## Events that keep to it -/

def HasExecute (pending : List PendingRequest) : Prop :=
  ∃ entry ∈ pending, entry.type = .actionExecute

/-- An error that `execute` does not map to an unknown outcome when it stops the connection. -/
def Unmapped : CompanionThrown → Prop
  | .client _ => False
  | .response error _ => error.code ≠ .actionOutcomeUnknown
  | .foreign _ => True

/-- The pending request that a response is for. -/
def awaited (pending : List PendingRequest) (response : CompanionResponse) :
    Option PendingRequest :=
  (pending.find? fun entry => entry.requestId = response.requestId).filter fun entry =>
    response.type = entry.expectedResponseType

/-- The error that a response to a request stops the connection with, if it does. -/
def stopsWith (entry : PendingRequest) (response : CompanionResponse) : Option CompanionThrown :=
  match response.body with
  | .ok _ => none
  | .error error =>
    match protocolCode error.code with
    | some mapped => some (.client ⟨mapped, error.safeMessage, entry.outcomeUnknown⟩)
    | none => if entry.failStopOnFailure then some (.response error entry.outcomeUnknown) else none

section Library

variable (L : PipeLibrary) (o : PipeClientOptions)

/-- Bytes that stop the connection with an unmapped error while an execution is pending: a frame of
an impossible length, a JSON body that is no response, or the refusal of a handshake, after responses
that do not stop the connection. -/
inductive Malformed : List PendingRequest → List UInt8 → Prop
  | length {pending : List PendingRequest} {bytes : List UInt8} {thrown : IpcThrown} :
      nextFrame o bytes = .fault (.foreign thrown) → HasExecute pending → Malformed pending bytes
  | shape {pending : List PendingRequest} {bytes body rest : List UInt8} {thrown : IpcThrown} :
      nextFrame o bytes = .frame body rest → readResponse L body = .error (.foreign thrown) →
      HasExecute pending → Malformed pending bytes
  | refusal {pending : List PendingRequest} {bytes body rest : List UInt8}
      {response : CompanionResponse} {entry : PendingRequest} {thrown : CompanionThrown} :
      nextFrame o bytes = .frame body rest → readResponse L body = .ok response →
      awaited pending response = some entry → stopsWith entry response = some thrown →
      Unmapped thrown → HasExecute (pending.erase entry) → Malformed pending bytes
  | later {pending : List PendingRequest} {bytes body rest : List UInt8}
      {response : CompanionResponse} {entry : PendingRequest} :
      nextFrame o bytes = .frame body rest → readResponse L body = .ok response →
      awaited pending response = some entry → stopsWith entry response = none →
      Malformed (pending.erase entry) rest → Malformed pending bytes

/-- A chunk within the bound of the buffer does not make the bytes malformed, and writing the frame
of an execution does not throw. -/
def Regular (c : NamedPipeCompanionClient) : ClientEvent → Prop
  | .data socket chunk => c.Current socket →
      (c.buffered ++ chunk).length ≤ o.maxBufferedBytes + 4 →
        ¬ Malformed L o c.pending (c.buffered ++ chunk)
  | .send call requestId write => ∀ waiting frame,
      c.waiting.find? (fun waiting => waiting.call = call) = some waiting →
      waiting.type = .actionExecute → prepare L o c waiting requestId = .ok frame → write = none
  | _ => True

end Library

/-! ## Ends of calls -/

variable {L : PipeLibrary} {o : PipeClientOptions} {c c' : NamedPipeCompanionClient}

/-- Every pending request was handed to the socket. -/
structure Inv (c : NamedPipeCompanionClient) : Prop where
  dispatched : ∀ entry ∈ c.pending, entry.dispatched = true
  accounted : c.Accounted

/-- A step keeps the invariant, and the calls that end with it are honest exactly when it is
sound. -/
def Ends (c c' : NamedPipeCompanionClient) (sound : Prop) : Prop :=
  c'.Inv ∧ ∃ ended, c'.ended = c.ended ++ ended ∧ ((∀ e ∈ ended, e.Honest) ↔ sound)

theorem Ends.congr {sound sound' : Prop} (h : Ends c c' sound) (hs : sound ↔ sound') :
    Ends c c' sound' := by
  obtain ⟨hi, ended, he, hh⟩ := h
  exact ⟨hi, ended, he, hh.trans hs⟩

theorem Ends.trans {c'' : NamedPipeCompanionClient} {sound sound' : Prop} (h : Ends c c' sound)
    (h' : Ends c' c'' sound') : Ends c c'' (sound ∧ sound') := by
  obtain ⟨-, ended, he, hh⟩ := h
  obtain ⟨hi, ended', he', hh'⟩ := h'
  refine ⟨hi, ended ++ ended', ?_, ?_⟩
  · rw [he', he, List.append_assoc]
  · rw [List.forall_mem_append, hh, hh']

/-- A step that ends no call. -/
theorem ends_of_same (hi : c'.Inv) (he : c'.ended = c.ended) : Ends c c' True :=
  ⟨hi, [], by rw [he, List.append_nil], by simp⟩

theorem execute_of_outcomeUnknown {error : NamedPipeCompanionClientError}
    (h : error.outcomeUnknown = true) :
    ∃ message, (Settlement.rejected (.client error)).execute = .actionOutcomeUnknown message :=
  ⟨_, if_pos h⟩

theorem outcomeUnknown_of_execute {entry : PendingRequest} (hd : entry.dispatched = true)
    (ht : entry.type = .actionExecute) : entry.outcomeUnknown = true := by
  rw [PendingRequest.outcomeUnknown, hd, PendingRequest.sideEffecting, ht]
  rfl

/-- A stop of the connection is honest to a pending request unless it is an execution and the error
is not mapped. -/
theorem honest_stop_iff {entry : PendingRequest} (hd : entry.dispatched = true)
    (thrown : CompanionThrown) :
    (entry.ended none (.rejected (stopReason thrown entry))).Honest ↔
      (Unmapped thrown → entry.type ≠ .actionExecute) := by
  have hnone : ¬ ∃ response, (none : Option CompanionResponse) = some response ∧
      response.Definite := by simp
  cases thrown with
  | client error =>
    refine iff_of_true (fun ht _ => .inr ?_) (fun h => h.elim)
    have hu := outcomeUnknown_of_execute hd ht
    show ∃ message, (Settlement.rejected (stopReason (.client error) entry)).execute = _
    unfold stopReason
    dsimp only
    split
    · exact execute_of_outcomeUnknown rfl
    next hnot => exact execute_of_outcomeUnknown (by simpa [hu] using hnot)
  | response error unknown =>
    constructor
    · intro h hu ht
      rcases h ht hd with hdef | ⟨message, hm⟩
      · exact hnone hdef
      · exact absurd (hm.symm.trans (if_neg hu)) nofun
    · intro h ht _
      have hcode : error.code = .actionOutcomeUnknown := not_not.mp fun hu => h hu ht
      exact .inr ⟨error.safeMessage, if_pos hcode⟩
  | foreign thrown =>
    constructor
    · rintro h - ht
      rcases h ht hd with hdef | ⟨message, hm⟩
      · exact hnone hdef
      · exact absurd hm nofun
    · exact fun h ht => absurd ht (h trivial)

theorem ends_failStop (h : c.Inv) (thrown : CompanionThrown) :
    Ends c (c.failStop thrown) (Unmapped thrown → ¬ HasExecute c.pending) := by
  refine ⟨⟨fun _ he => absurd he List.not_mem_nil, fun call => ?_⟩, _, rfl, ?_⟩
  · have hmap : (c.pending.map fun entry => (entry.ended none
        (.rejected (stopReason thrown entry))).call) = c.pending.map (·.call) := rfl
    refine Eq.trans ?_ (h.accounted call)
    simp only [failStop, List.map_append, List.map_map, List.count_append, List.map_nil,
      List.count_nil, Function.comp_def, hmap]
    omega
  · simp only [List.forall_mem_map]
    constructor
    · rintro hall hu ⟨entry, hentry, ht⟩
      exact (honest_stop_iff (h.dispatched entry hentry) thrown).mp (hall entry hentry) hu ht
    · intro hno entry hentry
      exact (honest_stop_iff (h.dispatched entry hentry) thrown).mpr
        fun hu ht => hno hu ⟨entry, hentry, ht⟩

theorem count_erase_call {entry : PendingRequest} (h : entry ∈ c.pending) (call : ℕ) :
    (c.pending.map (·.call)).count call =
      ((c.pending.erase entry).map (·.call)).count call + [entry.call].count call := by
  have hp := ((List.perm_cons_erase h).map (·.call)).count_eq call
  rw [hp, List.map_cons, List.count_cons, List.count_singleton]

theorem ends_settle (h : c.Inv) {entry : PendingRequest} (hentry : entry ∈ c.pending)
    (answer : Option CompanionResponse) (settlement : Settlement) :
    Ends c (c.settle entry answer settlement) (entry.ended answer settlement).Honest := by
  refine ⟨⟨fun e he => h.dispatched e (List.mem_of_mem_erase he), fun call => ?_⟩, _, rfl, ?_⟩
  · have hc := count_erase_call hentry call
    refine Eq.trans ?_ (h.accounted call)
    simp only [settle, List.map_append, List.count_append, List.map_cons, List.map_nil,
      PendingRequest.ended]
    omega
  · exact List.forall_mem_singleton

/-! ## Responses -/

/-- What a pending request is settled with by a response. -/
def settlementOf (entry : PendingRequest) (response : CompanionResponse) : Settlement :=
  match response.body with
  | .ok payload => .resolved payload
  | .error error =>
    match protocolCode error.code with
    | some mapped => .rejected (.client ⟨mapped, error.safeMessage, entry.outcomeUnknown⟩)
    | none => .rejected (.response error entry.outcomeUnknown)

/-- The request that a response answers ends with it, and the connection may be stopped then. -/
def answered (c : NamedPipeCompanionClient) (entry : PendingRequest)
    (response : CompanionResponse) : NamedPipeCompanionClient :=
  let settled := c.settle entry (some response) (settlementOf entry response)
  match stopsWith entry response with
  | none => settled
  | some thrown => settled.failStop thrown

theorem deliverError_eq {entry : PendingRequest} {response : CompanionResponse}
    {error : CompanionStableError} (h : response.body = .error error) :
    c.deliverError entry response error = c.answered entry response := by
  unfold deliverError answered settlementOf stopsWith
  rw [h]
  dsimp only
  cases protocolCode error.code with
  | some mapped => rfl
  | none =>
    dsimp only
    split <;> rfl

/-- A response is delivered to the request that awaits it, or is an error of the client. -/
theorem deliverResponse_eq (c : NamedPipeCompanionClient) (response : CompanionResponse) :
    (∃ entry, awaited c.pending response = some entry ∧
      c.deliverResponse response = .ok (c.answered entry response)) ∨
    (awaited c.pending response = none ∧
      ∃ error, c.deliverResponse response = .error (.client error)) := by
  unfold deliverResponse awaited pendingFor
  cases c.pending.find? fun entry => entry.requestId = response.requestId with
  | none => exact .inr ⟨rfl, _, rfl⟩
  | some entry =>
    dsimp only
    by_cases ht : response.type = entry.expectedResponseType
    · left
      refine ⟨entry, Option.filter_eq_some_iff.mpr ⟨rfl, decide_eq_true ht⟩, ?_⟩
      rw [if_neg (not_not.mpr ht)]
      cases hbody : response.body with
      | ok payload =>
        unfold answered settlementOf stopsWith
        rw [hbody]
      | error error => exact congrArg Except.ok (deliverError_eq hbody)
    · right
      refine ⟨Option.filter_eq_none_iff.mpr ?_, _, if_pos ht⟩
      rintro _ ⟨⟩
      simpa using ht

theorem mem_of_awaited {pending : List PendingRequest} {response : CompanionResponse}
    {entry : PendingRequest} (h : awaited pending response = some entry) : entry ∈ pending :=
  List.mem_of_find?_eq_some (Option.filter_eq_some_iff.mp h).1

/-- A response settles an execution honestly. -/
theorem honest_settlementOf {entry : PendingRequest} (hd : entry.dispatched = true)
    (response : CompanionResponse) :
    (entry.ended (some response) (settlementOf entry response)).Honest := by
  intro ht _
  have hu := outcomeUnknown_of_execute hd ht
  show (∃ r, some response = some r ∧ r.Definite) ∨
    ∃ message, (settlementOf entry response).execute = .actionOutcomeUnknown message
  unfold settlementOf
  cases hbody : response.body with
  | ok payload =>
    refine .inl ⟨response, rfl, ?_⟩
    rw [CompanionResponse.Definite, hbody]
    trivial
  | error error =>
    dsimp only
    cases hcode : protocolCode error.code with
    | some mapped => exact .inr (execute_of_outcomeUnknown hu)
    | none =>
      by_cases hunknown : error.code = .actionOutcomeUnknown
      · exact .inr ⟨error.safeMessage, if_pos hunknown⟩
      · refine .inl ⟨response, rfl, ?_⟩
        rw [CompanionResponse.Definite, hbody]
        exact ⟨hunknown, hcode⟩

theorem ends_answered (h : c.Inv) {entry : PendingRequest} (hentry : entry ∈ c.pending)
    (response : CompanionResponse) :
    Ends c (c.answered entry response) (∀ thrown, stopsWith entry response = some thrown →
      Unmapped thrown → ¬ HasExecute (c.pending.erase entry)) := by
  have hs := ends_settle h hentry (some response) (settlementOf entry response)
  have hhonest := honest_settlementOf (h.dispatched entry hentry) response
  unfold answered
  cases hstop : stopsWith entry response with
  | none => exact hs.congr (iff_of_true hhonest nofun)
  | some thrown =>
    refine (hs.trans (ends_failStop hs.1 thrown)).congr ?_
    rw [and_iff_right hhonest]
    constructor
    · rintro hno _ ⟨⟩
      exact hno
    · exact fun hno => hno thrown rfl

/-! ## Malformed bytes -/

section Malformed

variable {pending : List PendingRequest} {bytes body rest : List UInt8}

theorem nextFrame_fault {thrown : CompanionThrown} (h : nextFrame o bytes = .fault thrown) :
    (∃ error, thrown = .client error) ∨ ∃ ipc, thrown = .foreign ipc := by
  unfold nextFrame at h
  split at h
  · cases h
  · dsimp only at h
    split at h
    next ipc _ => exact .inr ⟨ipc, (FrameStep.fault.inj h).symm⟩
    next =>
      split at h
      · exact .inl ⟨_, (FrameStep.fault.inj h).symm⟩
      · split at h <;> cases h

theorem readResponse_error {thrown : CompanionThrown} (h : readResponse L body = .error thrown) :
    (∃ error, thrown = .client error) ∨ ∃ ipc, thrown = .foreign ipc := by
  unfold readResponse at h
  split at h
  · exact .inl ⟨_, (Except.error.inj h).symm⟩
  · split at h
    next ipc _ => exact .inr ⟨ipc, (Except.error.inj h).symm⟩
    · cases h

theorem not_malformed_of_wait (h : nextFrame o bytes = .wait) : ¬ Malformed L o pending bytes := by
  intro hm
  cases hm with
  | length hn => cases h.symm.trans hn
  | shape hn => cases h.symm.trans hn
  | refusal hn => cases h.symm.trans hn
  | later hn => cases h.symm.trans hn

/-- An error about the bytes makes them malformed when it is not mapped and hits an execution. -/
theorem malformed_of_fault_iff {thrown : CompanionThrown} (h : nextFrame o bytes = .fault thrown) :
    Malformed L o pending bytes ↔ Unmapped thrown ∧ HasExecute pending := by
  constructor
  · intro hm
    cases hm with
    | length hn he =>
      obtain rfl := FrameStep.fault.inj (h.symm.trans hn)
      exact ⟨trivial, he⟩
    | shape hn => cases h.symm.trans hn
    | refusal hn => cases h.symm.trans hn
    | later hn => cases h.symm.trans hn
  · rintro ⟨hu, he⟩
    rcases nextFrame_fault h with ⟨error, rfl⟩ | ⟨ipc, rfl⟩
    · exact hu.elim
    · exact .length h he

theorem malformed_of_error_iff {thrown : CompanionThrown}
    (h : nextFrame o bytes = .frame body rest) (hr : readResponse L body = .error thrown) :
    Malformed L o pending bytes ↔ Unmapped thrown ∧ HasExecute pending := by
  constructor
  · intro hm
    cases hm with
    | length hn => cases h.symm.trans hn
    | shape hn hs he =>
      obtain ⟨rfl, rfl⟩ := FrameStep.frame.inj (h.symm.trans hn)
      obtain rfl := Except.error.inj (hr.symm.trans hs)
      exact ⟨trivial, he⟩
    | refusal hn hs =>
      obtain ⟨rfl, rfl⟩ := FrameStep.frame.inj (h.symm.trans hn)
      cases hr.symm.trans hs
    | later hn hs =>
      obtain ⟨rfl, rfl⟩ := FrameStep.frame.inj (h.symm.trans hn)
      cases hr.symm.trans hs
  · rintro ⟨hu, he⟩
    rcases readResponse_error hr with ⟨error, rfl⟩ | ⟨ipc, rfl⟩
    · exact hu.elim
    · exact .shape h hr he

/-- Bytes that begin with a response are malformed by it, or by what comes after it. -/
theorem malformed_of_response_iff {response : CompanionResponse}
    (h : nextFrame o bytes = .frame body rest) (hr : readResponse L body = .ok response) :
    Malformed L o pending bytes ↔ ∃ entry, awaited pending response = some entry ∧
      ((∃ thrown, stopsWith entry response = some thrown ∧ Unmapped thrown ∧
          HasExecute (pending.erase entry)) ∨
        (stopsWith entry response = none ∧ Malformed L o (pending.erase entry) rest)) := by
  constructor
  · intro hm
    cases hm with
    | length hn => cases h.symm.trans hn
    | shape hn hs =>
      obtain ⟨rfl, rfl⟩ := FrameStep.frame.inj (h.symm.trans hn)
      cases hr.symm.trans hs
    | refusal hn hs ha hstop hu he =>
      obtain ⟨rfl, rfl⟩ := FrameStep.frame.inj (h.symm.trans hn)
      obtain rfl := Except.ok.inj (hr.symm.trans hs)
      exact ⟨_, ha, .inl ⟨_, hstop, hu, he⟩⟩
    | later hn hs ha hstop hm =>
      obtain ⟨rfl, rfl⟩ := FrameStep.frame.inj (h.symm.trans hn)
      obtain rfl := Except.ok.inj (hr.symm.trans hs)
      exact ⟨_, ha, .inr ⟨hstop, hm⟩⟩
  · rintro ⟨entry, ha, ⟨thrown, hstop, hu, he⟩ | ⟨hstop, hm⟩⟩
    · exact .refusal h hr ha hstop hu he
    · exact .later h hr ha hstop hm

end Malformed

/-! ## Bytes -/

theorem Inv.withBuffered (h : c.Inv) (bytes : List UInt8) :
    NamedPipeCompanionClient.Inv { c with buffered := bytes } := ⟨h.dispatched, h.accounted⟩

/-- What is left of the pending requests and of the bytes after a response. -/
theorem pending_answered (c : NamedPipeCompanionClient) (entry : PendingRequest)
    (response : CompanionResponse) :
    (stopsWith entry response = none ∧ (c.answered entry response).pending = c.pending.erase entry ∧
      (c.answered entry response).buffered = c.buffered) ∨
    (∃ thrown, stopsWith entry response = some thrown ∧ (c.answered entry response).pending = [] ∧
      (c.answered entry response).buffered = []) := by
  unfold answered
  cases stopsWith entry response with
  | none => exact .inl ⟨rfl, rfl, rfl⟩
  | some thrown => exact .inr ⟨thrown, rfl, rfl, rfl⟩

/-- A response and the bytes after it are sound when they are not malformed. -/
theorem sound_answered_iff {rest : List UInt8} {response : CompanionResponse}
    {entry : PendingRequest} (ha : awaited c.pending response = some entry) :
    ((∀ thrown, stopsWith entry response = some thrown → Unmapped thrown →
        ¬ HasExecute (c.pending.erase entry)) ∧
      ¬ Malformed L o (answered { c with buffered := rest } entry response).pending
        (answered { c with buffered := rest } entry response).buffered) ↔
    ¬ ∃ entry, awaited c.pending response = some entry ∧
      ((∃ thrown, stopsWith entry response = some thrown ∧ Unmapped thrown ∧
          HasExecute (c.pending.erase entry)) ∨
        (stopsWith entry response = none ∧ Malformed L o (c.pending.erase entry) rest)) := by
  have hentry {entry' : PendingRequest} (h : awaited c.pending response = some entry') :
      entry' = entry := Option.some.inj (h.symm.trans ha)
  rcases pending_answered { c with buffered := rest } entry response with
    ⟨hstop, hp, hb⟩ | ⟨thrown, hstop, hp, hb⟩
  · rw [hp, hb]
    constructor
    · rintro ⟨-, hnot⟩ ⟨entry', he, ⟨thrown, hs, -⟩ | ⟨-, hm⟩⟩
      · obtain rfl := hentry he
        cases hstop.symm.trans hs
      · obtain rfl := hentry he
        exact hnot hm
    · intro hno
      refine ⟨fun thrown hs => ?_, fun hm => hno ⟨entry, ha, .inr ⟨hstop, hm⟩⟩⟩
      cases hstop.symm.trans hs
  · rw [hp, hb]
    constructor
    · rintro ⟨hall, -⟩ ⟨entry', he, ⟨thrown', hs, hu, hx⟩ | ⟨hs, -⟩⟩
      · obtain rfl := hentry he
        exact hall thrown' hs hu hx
      · obtain rfl := hentry he
        cases hstop.symm.trans hs
    · intro hno
      refine ⟨fun thrown hs hu hx => hno ⟨entry, ha, .inl ⟨thrown, hs, hu, hx⟩⟩, ?_⟩
      exact not_malformed_of_wait rfl

/-- Reading the frames is honest to the pending requests exactly when the bytes are not
malformed. -/
theorem ends_drain (h : c.Inv) :
    Ends c (drain L o c) (¬ Malformed L o c.pending c.buffered) := by
  induction hn : c.buffered.length using Nat.strongRecOn generalizing c with
  | ind n ih =>
    cases hnext : nextFrame o c.buffered with
    | wait =>
      have hread : readFrame L o c = none := by rw [readFrame, hnext]
      rw [drain_of_none hread]
      exact (ends_of_same h rfl).congr (iff_of_true trivial (not_malformed_of_wait hnext))
    | fault thrown =>
      have hread : readFrame L o c = some (.error thrown) := by rw [readFrame, hnext]
      rw [drain_of_error hread, malformed_of_fault_iff hnext]
      exact (ends_failStop h thrown).congr not_and.symm
    | frame body rest =>
      have hread : readFrame L o c =
          some (acceptResponseFrame L { c with buffered := rest } body) := by rw [readFrame, hnext]
      unfold acceptResponseFrame at hread
      cases hr : readResponse L body with
      | error thrown =>
        rw [hr] at hread
        rw [drain_of_error hread, malformed_of_error_iff hnext hr]
        exact (ends_failStop h thrown).congr not_and.symm
      | ok response =>
        rw [hr, ok_bind] at hread
        rw [malformed_of_response_iff hnext hr]
        rcases deliverResponse_eq { c with buffered := rest } response with
          ⟨entry, ha, hd⟩ | ⟨ha, error, hd⟩
        · rw [hd] at hread
          have hfirst := ends_answered (h.withBuffered rest) (mem_of_awaited ha) response
          have hlater := ih _ (hn ▸ length_readFrame L o hread) hfirst.1 rfl
          rw [drain_of_ok hread]
          exact (hfirst.trans hlater).congr (sound_answered_iff ha)
        · have ha' : awaited c.pending response = none := ha
          rw [hd] at hread
          rw [drain_of_error hread, ha']
          exact (ends_failStop h _).congr (iff_of_true (fun hu => hu.elim) (by simp))

/-! ## Events -/

theorem ends_onData (h : c.Inv) (chunk : List UInt8) :
    Ends c (onData L o c chunk) ((c.buffered ++ chunk).length ≤ o.maxBufferedBytes + 4 →
      ¬ Malformed L o c.pending (c.buffered ++ chunk)) := by
  have hi := h.withBuffered (c.buffered ++ chunk)
  unfold onData
  by_cases hover : o.maxBufferedBytes + 4 < (c.buffered ++ chunk).length
  · dsimp only
    rw [if_pos hover]
    refine (ends_failStop hi _).congr (iff_of_true (fun hu => hu.elim) fun hle => ?_)
    exact absurd hle (Nat.not_le.mpr hover)
  · dsimp only
    rw [if_neg hover]
    exact (ends_drain hi).congr (imp_iff_right (Nat.not_lt.mp hover)).symm

theorem count_waiting {waiting : WaitingCall} (h : waiting ∈ c.waiting) (call : ℕ) :
    (c.waiting.map (·.call)).count call =
      ((c.waiting.erase waiting).map (·.call)).count call + [waiting.call].count call := by
  have hp := ((List.perm_cons_erase h).map (·.call)).count_eq call
  rw [hp, List.map_cons, List.count_cons, List.count_singleton]

/-- A call that was not handed to the socket may fail in any way. -/
theorem honest_refused (waiting : WaitingCall) (thrown : CompanionThrown) :
    (waiting.refused thrown).Honest := fun _ hd => absurd hd Bool.false_ne_true

theorem ends_refused (h : c.Inv) {waiting : WaitingCall} (hw : waiting ∈ c.waiting)
    (thrown : CompanionThrown) :
    Ends c { c with waiting := c.waiting.erase waiting, ended := c.ended ++ [waiting.refused thrown] }
      True := by
  refine ⟨⟨h.dispatched, fun call => ?_⟩, [waiting.refused thrown], rfl, ?_⟩
  · have hc := count_waiting hw call
    refine Eq.trans ?_ (h.accounted call)
    simp only [List.map_append, List.count_append, List.map_cons, List.map_nil,
      WaitingCall.refused]
    omega
  · exact iff_of_true (List.forall_mem_singleton.mpr (honest_refused waiting thrown)) trivial

theorem ends_send (h : c.Inv) {waiting : WaitingCall} (hw : waiting ∈ c.waiting)
    (requestId : String) (write : Option WriteThrown) :
    Ends c (send L o c waiting requestId write) (∀ frame, waiting.type = .actionExecute →
      prepare L o c waiting requestId = .ok frame → write = none) := by
  unfold send
  cases hp : prepare L o c waiting requestId with
  | error thrown =>
    exact (ends_refused h hw thrown).congr (iff_of_true trivial fun _ _ he => nomatch he)
  | ok frame =>
    dsimp only
    let entry : PendingRequest := ⟨waiting.call, requestId, waiting.type, true⟩
    have hi : Inv { c with
        waiting := c.waiting.erase waiting, pending := c.pending ++ [entry] } := by
      refine ⟨List.forall_mem_append.mpr ⟨h.dispatched, List.forall_mem_singleton.mpr rfl⟩, ?_⟩
      intro call
      have hc := count_waiting hw call
      refine Eq.trans ?_ (h.accounted call)
      simp only [List.map_append, List.count_append, List.map_cons, List.map_nil, entry]
      omega
    cases write with
    | none => exact (ends_of_same hi rfl).congr (iff_of_true trivial fun _ _ _ => rfl)
    | some thrown =>
      have hmem : entry ∈ c.pending ++ [entry] := List.mem_append_right _ List.mem_cons_self
      refine (ends_settle hi hmem none (.rejected (writeRejection thrown))).congr ?_
      constructor
      · intro hh frame ht _
        rcases hh ht rfl with ⟨response, hr, -⟩ | ⟨message, hm⟩
        · cases hr
        · cases thrown <;> cases hm
      · intro hno ht
        exact absurd (hno frame ht rfl) nofun

theorem ends_request (h : c.Inv) (type : CompanionRequestType) (payload : JsValue)
    (deadlineMs : ℤ) : Ends c (c.request type payload deadlineMs) True := by
  have hsucc (call : ℕ) : (if call < c.calls then 1 else 0) + [c.calls].count call =
      if call < c.calls + 1 then 1 else 0 := by
    rw [List.count_singleton]
    rcases Nat.lt_trichotomy call c.calls with hlt | rfl | hgt
    · simp [hlt, Nat.lt_succ_of_lt hlt, Nat.ne_of_gt hlt]
    · simp
    · simp [Nat.not_lt.mpr hgt.le, Nat.not_lt.mpr hgt, Nat.ne_of_lt hgt]
  have hwaits : Ends c { c with
      calls := c.calls + 1, waiting := c.waiting ++ [⟨c.calls, type, payload, deadlineMs⟩] }
      True := by
    refine ends_of_same ⟨h.dispatched, fun call => ?_⟩ rfl
    refine Eq.trans ?_ (hsucc call)
    rw [← h.accounted call]
    simp only [List.map_append, List.count_append, List.map_cons, List.map_nil]
    omega
  have hrefused (thrown : CompanionThrown) : Ends c { c with
      calls := c.calls + 1
      ended := c.ended ++ [WaitingCall.refused ⟨c.calls, type, payload, deadlineMs⟩ thrown] }
      True := by
    refine ⟨⟨h.dispatched, fun call => ?_⟩, _, rfl, ?_⟩
    · refine Eq.trans ?_ (hsucc call)
      rw [← h.accounted call]
      simp only [List.map_append, List.count_append, List.map_cons, List.map_nil,
        WaitingCall.refused]
      omega
    · exact iff_of_true (List.forall_mem_singleton.mpr (honest_refused _ thrown)) trivial
  unfold request
  dsimp only
  split
  · exact hwaits
  · split
    · exact hrefused _
    · split
      · exact hrefused _
      · exact hwaits

theorem ends_deadline (h : c.Inv) {entry : PendingRequest} (hentry : entry ∈ c.pending) :
    Ends c (c.deadlineExpired entry) True := by
  have hsettled := ends_settle h hentry none (.rejected (.client ⟨.companionRequestTimeout,
    "Companion request deadline expired", entry.outcomeUnknown⟩))
  have hhonest : (entry.ended none (.rejected (.client ⟨.companionRequestTimeout,
      "Companion request deadline expired", entry.outcomeUnknown⟩))).Honest := fun ht hd =>
    .inr (execute_of_outcomeUnknown (outcomeUnknown_of_execute hd ht))
  unfold deadlineExpired
  dsimp only
  split
  · exact (hsettled.trans (ends_failStop hsettled.1 _)).congr
      (iff_of_true ⟨hhonest, fun hu => hu.elim⟩ trivial)
  · exact hsettled.congr (iff_of_true hhonest trivial)

/-- A stop of the connection with an error of the client. -/
theorem ends_stop (h : c.Inv) (error : NamedPipeCompanionClientError) :
    Ends c (c.failStop (.client error)) True :=
  (ends_failStop h _).congr (iff_of_true (fun hu => hu.elim) trivial)

theorem ends_next (h : c.Inv) (e : ClientEvent) : Ends c (next L o c e) (Regular L o c e) := by
  have hsame : Ends c c True := ends_of_same h rfl
  cases e with
  | connect socket =>
    unfold next
    dsimp only
    split
    · exact ends_of_same ⟨h.dispatched, h.accounted⟩ rfl
    · exact hsame
  | destroyed => exact ends_of_same ⟨h.dispatched, h.accounted⟩ rfl
  | data socket chunk =>
    unfold next Regular
    dsimp only
    split
    next hc => exact (ends_onData h chunk).congr (imp_iff_right hc).symm
    next hc => exact hsame.congr (iff_of_true trivial fun hcurrent => absurd hcurrent hc)
  | socketError socket | socketClose socket =>
    unfold next
    dsimp only
    split
    · exact ends_stop h _
    · exact hsame
  | request type payload deadlineMs => exact ends_request h type payload deadlineMs
  | send call requestId write =>
    unfold next Regular
    dsimp only
    cases hw : c.waiting.find? fun waiting => waiting.call = call with
    | none => exact hsame.congr (iff_of_true trivial fun _ _ he => nomatch he)
    | some waiting =>
      refine (ends_send h (List.mem_of_find?_eq_some hw) requestId write).congr ?_
      constructor
      · rintro hall _ frame ⟨⟩
        exact hall frame
      · exact fun hall frame => hall waiting frame rfl
  | abandon call thrown =>
    unfold next
    dsimp only
    cases hw : c.waiting.find? fun waiting => waiting.call = call with
    | none => exact hsame
    | some waiting => exact ends_refused h (List.mem_of_find?_eq_some hw) thrown
  | deadline call =>
    unfold next
    dsimp only
    cases hentry : c.pending.find? fun entry => entry.call = call with
    | none => exact hsame
    | some entry => exact ends_deadline h (List.mem_of_find?_eq_some hentry)
  | authenticated =>
    unfold next
    dsimp only
    split
    · exact hsame
    · exact ends_of_same ⟨h.dispatched, h.accounted⟩ rfl
  | identityRejected error => exact ends_stop h error
  | close =>
    unfold next close
    dsimp only
    split
    · exact hsame
    · exact ends_stop (c := { c with closed := true }) ⟨h.dispatched, h.accounted⟩ _

/-! ## Runs -/

theorem inv_new : new.Inv where
  dispatched _ he := absurd he List.not_mem_nil
  accounted call := by simp [new]

theorem inv_foldl (events : List ClientEvent) : (events.foldl (next L o) new).Inv :=
  (List.foldlRecOn events (next L o) (motive := Inv) inv_new fun _ hc e _ => (ends_next hc e).1)

/-- Whatever the socket and the Companion do, each call is accounted for and every dispatched
execution that no definite response answered fails as one of unknown outcome, exactly when no bytes
are malformed and no write of an execution throws. -/
theorem unanswered_executions_unknown_iff (L : PipeLibrary) (o : PipeClientOptions)
    (events : List ClientEvent) :
    ((events.foldl (next L o) new).Accounted ∧
      ∀ e ∈ (events.foldl (next L o) new).ended, e.Honest) ↔
    Meets (next L o) (Regular L o) new events := by
  have hstep : ∀ (c : NamedPipeCompanionClient) e, c.Inv → (next L o c e).Inv ∧ ∃ ended,
      (next L o c e).ended = c.ended ++ ended ∧
        ((∀ e ∈ ended, e.Honest) ↔ Regular L o c e) := fun _ e hc => ends_next hc e
  rw [and_iff_right (inv_foldl events).accounted, forall_log_iff hstep inv_new]
  exact and_iff_right fun e he => absurd he List.not_mem_nil

/-- The frame of an execution is written, and the Companion sends a header of a frame without a
body. -/
def emptyFrameEvents : List ClientEvent :=
  [.connect 7, .authenticated, .request .actionExecute (.obj []) 1000, .send 0 "r-1" none,
    .data 7 [0, 0, 0, 0]]

/-- The client that has dispatched the execution. -/
def dispatchedClient : NamedPipeCompanionClient :=
  { new with
    socket := some ⟨7, false⟩
    authenticated := true
    pending := [⟨0, "r-1", .actionExecute, true⟩]
    calls := 1 }

/-- The execution is rejected with the error about the frame. -/
theorem empty_frame_rejects_execution :
    ∃ e ∈ (emptyFrameEvents.foldl (next sampleLibrary defaultPipeClientOptions) new).ended,
      e.type = .actionExecute ∧ e.dispatched = true ∧ e.answer = none ∧
      e.settlement = .rejected (.foreign (.ipc ⟨.invalidRequestShape,
        "declared frame length must be a positive integer"⟩)) ∧ ¬ e.Honest := by
  have hsent : [ClientEvent.connect 7, .authenticated, .request .actionExecute (.obj []) 1000,
      .send 0 "r-1" none].foldl (next sampleLibrary defaultPipeClientOptions) new =
        dispatchedClient := by decide
  have hread : readFrame sampleLibrary defaultPipeClientOptions
      { dispatchedClient with buffered := [0, 0, 0, 0] } = some (.error (.foreign (.ipc
        ⟨.invalidRequestShape, "declared frame length must be a positive integer"⟩))) := by
    decide
  have hdata : next sampleLibrary defaultPipeClientOptions dispatchedClient
      (.data 7 [0, 0, 0, 0]) = _ := drain_of_error hread
  have hrun : emptyFrameEvents.foldl (next sampleLibrary defaultPipeClientOptions) new = _ :=
    (congrArg (fun c => next sampleLibrary defaultPipeClientOptions c (.data 7 [0, 0, 0, 0]))
      hsent).trans hdata
  rw [hrun]
  refine ⟨_, List.mem_cons_self, rfl, rfl, rfl, rfl, ?_⟩
  intro hh
  rcases hh rfl rfl with ⟨response, hr, -⟩ | ⟨message, hm⟩
  · cases hr
  · cases hm

end NamedPipeCompanionClient

end Qualigence.Desktop.Companion
