import Qualigence.Desktop.CompanionIpc
import Qualigence.Protocol.Buffers

/-! # The client of the Companion pipe

The client writes requests to a pipe, each as one frame, and reads the responses out of the bytes
that come back. A request is pending from the moment its frame is written until a response, its
deadline, or a stop of the connection ends it.
-/

namespace Qualigence.Desktop.Companion

open Protocol

/-! ## Errors -/

inductive NamedPipeCompanionClientErrorCode where
  | companionUnavailable
  | companionIdentityRejected
  | companionUnauthenticated
  | companionProtocolViolation
  | companionBackpressure
  | companionRequestTimeout
  | companionCorrelationError
  | companionMessageTooLarge
  deriving DecidableEq

def NamedPipeCompanionClientErrorCode.text : NamedPipeCompanionClientErrorCode → String
  | .companionUnavailable => "CompanionUnavailable"
  | .companionIdentityRejected => "CompanionIdentityRejected"
  | .companionUnauthenticated => "CompanionUnauthenticated"
  | .companionProtocolViolation => "CompanionProtocolViolation"
  | .companionBackpressure => "CompanionBackpressure"
  | .companionRequestTimeout => "CompanionRequestTimeout"
  | .companionCorrelationError => "CompanionCorrelationError"
  | .companionMessageTooLarge => "CompanionMessageTooLarge"

structure NamedPipeCompanionClientError where
  code : NamedPipeCompanionClientErrorCode
  message : String
  outcomeUnknown : Bool
  deriving DecidableEq

/-- What a request is rejected with: an error of the client, the error that the Companion answered,
or any other error. -/
inductive CompanionThrown where
  | client (error : NamedPipeCompanionClientError)
  | response (responseError : CompanionStableError) (outcomeUnknown : Bool)
  | foreign (thrown : IpcThrown)
  deriving DecidableEq

def clientError (code : NamedPipeCompanionClientErrorCode) (message : String) : CompanionThrown :=
  .client ⟨code, message, false⟩

def mapStableErrorCode : CompanionStableErrorCode → Option NamedPipeCompanionClientErrorCode
  | .companionUnavailable => some .companionUnavailable
  | .companionIdentityRejected => some .companionIdentityRejected
  | .companionUnauthenticated => some .companionUnauthenticated
  | .companionBackpressure => some .companionBackpressure
  | .companionRequestTimeout => some .companionRequestTimeout
  | .companionMessageTooLarge => some .companionMessageTooLarge
  | .companionProtocolViolation => some .companionProtocolViolation
  | .companionCorrelationError => some .companionCorrelationError
  | _ => none

def isSideEffectingRequest : CompanionRequestType → Bool
  | .appLaunch | .appReset | .appShutdown | .permitRequest | .actionExecute => true
  | _ => false

def isHandshakeRequest : CompanionRequestType → Bool
  | .handshakeBegin | .handshakeProve => true
  | _ => false

/-! ## Frames -/

/-- `assertDeclaredFrameLength` -/
def assertDeclaredFrameLength (declaredLength : ℕ) : Check Unit :=
  if declaredLength = 0 then
    refuse .invalidRequestShape "declared frame length must be a positive integer"
  else if maxFrameBytes < declaredLength then
    refuse .companionMessageTooLarge ("declared frame length " ++ toString declaredLength ++
      " exceeds " ++ toString maxFrameBytes ++ " bytes")
  else .ok ()

def writeUInt32BE (n : ℕ) : List UInt8 :=
  [UInt8.ofNat (n / 2 ^ 24), UInt8.ofNat (n / 2 ^ 16), UInt8.ofNat (n / 2 ^ 8), UInt8.ofNat n]

/-- The number that the first four bytes are. -/
def readUInt32BE : List UInt8 → ℕ
  | a :: b :: c :: d :: _ => a.toNat * 2 ^ 24 + b.toNat * 2 ^ 16 + c.toNat * 2 ^ 8 + d.toNat
  | _ => 0

def frameOf (body : List UInt8) : List UInt8 := writeUInt32BE body.length ++ body

structure PipeClientOptions where
  maxFrameBytes : ℕ
  maxBufferedBytes : ℕ
  maxInFlightRequests : ℕ

def defaultPipeClientOptions : PipeClientOptions where
  maxFrameBytes := maxFrameBytes
  maxBufferedBytes := maxBufferedBytes
  maxInFlightRequests := maxInFlightRequests

def frameForJson (o : PipeClientOptions) (value : JsValue) :
    Except CompanionThrown (List UInt8) :=
  match stringifyChars value with
  | none => .error (.foreign (.other "TypeError"))
  | some text =>
    let body := utf8Encode text
    match assertDeclaredFrameLength body.length with
    | .error thrown => .error (.foreign thrown)
    | .ok () =>
      if o.maxFrameBytes < body.length then
        .error (clientError .companionMessageTooLarge
          "outbound Companion frame exceeds configured bound")
      else .ok (frameOf body)

/-- What the buffered bytes begin with. -/
inductive FrameStep where
  | wait
  | fault (thrown : CompanionThrown)
  | frame (body rest : List UInt8)

def nextFrame (o : PipeClientOptions) (buffered : List UInt8) : FrameStep :=
  if buffered.length < 4 then .wait
  else
    let declaredLength := readUInt32BE buffered
    match assertDeclaredFrameLength declaredLength with
    | .error thrown => .fault (.foreign thrown)
    | .ok () =>
      if o.maxFrameBytes < declaredLength then
        .fault (clientError .companionMessageTooLarge "Companion frame exceeded configured bound")
      else if buffered.length < declaredLength + 4 then .wait
      else .frame ((buffered.drop 4).take declaredLength) (buffered.drop (4 + declaredLength))

theorem length_rest {o : PipeClientOptions} {buffered body rest : List UInt8}
    (h : nextFrame o buffered = .frame body rest) : rest.length < buffered.length := by
  unfold nextFrame at h
  split at h
  · cases h
  next hl =>
    dsimp only at h
    split at h
    · cases h
    next =>
      split at h
      · cases h
      next =>
        split at h
        · cases h
        next =>
          obtain ⟨-, rfl⟩ := FrameStep.frame.inj h
          rw [List.length_drop]
          omega

/-! ## Calls -/

/-- How a call ends. -/
inductive Settlement where
  | resolved (payload : CompanionResponsePayload)
  | rejected (thrown : CompanionThrown)
  deriving DecidableEq

/-- A call that waits for the connection. -/
structure WaitingCall where
  call : ℕ
  type : CompanionRequestType
  payload : JsValue
  deadlineMs : ℤ
  deriving DecidableEq

structure PendingRequest where
  call : ℕ
  requestId : String
  type : CompanionRequestType
  dispatched : Bool
  deriving DecidableEq

namespace PendingRequest

def expectedResponseType (entry : PendingRequest) : CompanionResponseType :=
  expectedResponseTypeForRequest entry.type

def sideEffecting (entry : PendingRequest) : Bool := isSideEffectingRequest entry.type

def failStopOnFailure (entry : PendingRequest) : Bool := isHandshakeRequest entry.type

def outcomeUnknown (entry : PendingRequest) : Bool := entry.dispatched && entry.sideEffecting

end PendingRequest

/-- A call that has ended, whether its frame was handed to the socket, and the response that it was
answered with. -/
structure EndedCall where
  call : ℕ
  type : CompanionRequestType
  dispatched : Bool
  answer : Option CompanionResponse
  settlement : Settlement
  deriving DecidableEq

def PendingRequest.ended (entry : PendingRequest) (answer : Option CompanionResponse)
    (settlement : Settlement) : EndedCall where
  call := entry.call
  type := entry.type
  dispatched := entry.dispatched
  answer := answer
  settlement := settlement

def WaitingCall.refused (waiting : WaitingCall) (thrown : CompanionThrown) : EndedCall where
  call := waiting.call
  type := waiting.type
  dispatched := false
  answer := none
  settlement := .rejected thrown

/-! ## The client -/

structure CompanionSocket where
  id : ℕ
  destroyed : Bool
  deriving DecidableEq

/-- The client with the calls that were made on it, numbered in their order. -/
structure NamedPipeCompanionClient where
  socket : Option CompanionSocket
  buffered : List UInt8
  pending : List PendingRequest
  authenticated : Bool
  closed : Bool
  calls : ℕ
  waiting : List WaitingCall
  ended : List EndedCall
  deriving DecidableEq

/-- What a socket throws out of `write`: an error, or something that is none. -/
inductive WriteThrown where
  | error (reason : String)
  | other
  deriving DecidableEq

/-- What the client uses of its environment: the parsers of payloads, and the validation of a request
that makes its envelope. -/
structure PipeLibrary where
  parsers : ResponseParsers
  createCompanionRequestEnvelope : String → CompanionRequestType → JsValue → Check JsValue

def closedError : CompanionThrown := clientError .companionUnavailable "Companion client closed"

section Library

variable (L : PipeLibrary) (o : PipeClientOptions)

namespace NamedPipeCompanionClient

def new : NamedPipeCompanionClient where
  socket := none
  buffered := []
  pending := []
  authenticated := false
  closed := false
  calls := 0
  waiting := []
  ended := []

/-- What a pending request is rejected with when the connection is stopped. -/
def stopReason (thrown : CompanionThrown) (entry : PendingRequest) : CompanionThrown :=
  match thrown with
  | .client error =>
    if entry.outcomeUnknown ∧ ¬ error.outcomeUnknown then
      .client { error with outcomeUnknown := true }
    else .client error
  | thrown => thrown

def failStop (c : NamedPipeCompanionClient) (thrown : CompanionThrown) :
    NamedPipeCompanionClient :=
  { c with
    socket := none
    authenticated := false
    buffered := []
    pending := []
    ended := c.ended ++ c.pending.map fun entry =>
      entry.ended none (.rejected (stopReason thrown entry)) }

def pendingFor (c : NamedPipeCompanionClient) (requestId : String) : Option PendingRequest :=
  c.pending.find? fun entry => entry.requestId = requestId

/-- A pending request ends. -/
def settle (c : NamedPipeCompanionClient) (entry : PendingRequest)
    (answer : Option CompanionResponse) (settlement : Settlement) : NamedPipeCompanionClient :=
  { c with
    pending := c.pending.erase entry
    ended := c.ended ++ [entry.ended answer settlement] }

/-- The code of a response that says that the protocol was violated. -/
def protocolCode (code : CompanionStableErrorCode) : Option NamedPipeCompanionClientErrorCode :=
  (mapStableErrorCode code).filter fun mapped =>
    mapped = .companionProtocolViolation ∨ mapped = .companionCorrelationError

def deliverError (c : NamedPipeCompanionClient) (entry : PendingRequest)
    (response : CompanionResponse) (error : CompanionStableError) : NamedPipeCompanionClient :=
  match protocolCode error.code with
  | some mapped =>
    let protocolError := .client ⟨mapped, error.safeMessage, entry.outcomeUnknown⟩
    (c.settle entry (some response) (.rejected protocolError)).failStop protocolError
  | none =>
    let responseError := .response error entry.outcomeUnknown
    let settled := c.settle entry (some response) (.rejected responseError)
    if entry.failStopOnFailure then settled.failStop responseError else settled

def deliverResponse (c : NamedPipeCompanionClient) (response : CompanionResponse) :
    Except CompanionThrown NamedPipeCompanionClient :=
  match c.pendingFor response.requestId with
  | none => .error (clientError .companionCorrelationError
      "Companion response used an unknown or completed requestId")
  | some entry =>
    if response.type ≠ entry.expectedResponseType then
      .error (clientError .companionCorrelationError
        "Companion response type did not match the request")
    else match response.body with
      | .error error => .ok (c.deliverError entry response error)
      | .ok payload => .ok (c.settle entry (some response) (.resolved payload))

def readResponse (body : List UInt8) : Except CompanionThrown CompanionResponse :=
  match parseJson (utf8Decode body) with
  | none => .error (clientError .companionProtocolViolation
      "Companion frame body is not valid JSON")
  | some decoded =>
    match parseCompanionResponse L.parsers decoded with
    | .error thrown => .error (.foreign thrown)
    | .ok response => .ok response

def acceptResponseFrame (c : NamedPipeCompanionClient) (body : List UInt8) :
    Except CompanionThrown NamedPipeCompanionClient := do
  let response ← readResponse L body
  c.deliverResponse response

/-- The next state of the loop that reads frames, if it goes on. -/
def readFrame (c : NamedPipeCompanionClient) :
    Option (Except CompanionThrown NamedPipeCompanionClient) :=
  match nextFrame o c.buffered with
  | .wait => none
  | .fault thrown => some (.error thrown)
  | .frame body rest => some (acceptResponseFrame L { c with buffered := rest } body)

theorem buffered_failStop (c : NamedPipeCompanionClient) (thrown : CompanionThrown) :
    (c.failStop thrown).buffered = [] := rfl

theorem buffered_deliverResponse {c c' : NamedPipeCompanionClient} {response : CompanionResponse}
    (h : c.deliverResponse response = .ok c') : c'.buffered.length ≤ c.buffered.length := by
  unfold deliverResponse at h
  split at h
  · cases h
  next entry _ =>
    split at h
    · cases h
    next =>
      split at h
      next error _ =>
        obtain rfl := Except.ok.inj h
        unfold deliverError
        split
        · exact Nat.zero_le _
        · dsimp only
          split
          · exact Nat.zero_le _
          · exact Nat.le_refl _
      next =>
        obtain rfl := Except.ok.inj h
        exact Nat.le_refl _

theorem length_readFrame {c c' : NamedPipeCompanionClient}
    (h : readFrame L o c = some (.ok c')) : c'.buffered.length < c.buffered.length := by
  unfold readFrame at h
  split at h
  · cases h
  · cases h
  next body rest hn =>
    have h := Option.some.inj h
    unfold acceptResponseFrame at h
    cases hr : readResponse L body with
    | error thrown =>
      rw [hr] at h
      cases h
    | ok response =>
      rw [hr] at h
      exact Nat.lt_of_le_of_lt (buffered_deliverResponse h) (length_rest hn)

/-- The loop of `onData`, which stops the connection on an error. -/
def drain (c : NamedPipeCompanionClient) : NamedPipeCompanionClient :=
  match _h : readFrame L o c with
  | none => c
  | some (.error thrown) => c.failStop thrown
  | some (.ok c') => drain c'
  termination_by c.buffered.length
  decreasing_by exact length_readFrame L o (by assumption)

variable {L o} in
theorem drain_of_none {c : NamedPipeCompanionClient} (h : readFrame L o c = none) : drain L o c = c := by
  rw [drain]
  split
  · rfl
  next hr => rw [h] at hr; cases hr
  next hr => rw [h] at hr; cases hr

variable {L o} in
theorem drain_of_error {c : NamedPipeCompanionClient} {thrown : CompanionThrown}
    (h : readFrame L o c = some (.error thrown)) :
    drain L o c = c.failStop thrown := by
  rw [drain]
  split
  next hr => rw [h] at hr; cases hr
  next hr =>
    rw [h] at hr
    obtain rfl := Except.error.inj (Option.some.inj hr)
    rfl
  next hr => rw [h] at hr; cases hr

variable {L o} in
theorem drain_of_ok {c c' : NamedPipeCompanionClient} (h : readFrame L o c = some (.ok c')) :
    drain L o c = drain L o c' := by
  conv_lhs => rw [drain]
  split
  next hr => rw [h] at hr; cases hr
  next hr => rw [h] at hr; cases hr
  next hr =>
    rw [h] at hr
    obtain rfl := Except.ok.inj (Option.some.inj hr)
    rfl

def onData (c : NamedPipeCompanionClient) (chunk : List UInt8) : NamedPipeCompanionClient :=
  let received := { c with buffered := c.buffered ++ chunk }
  if o.maxBufferedBytes + 4 < received.buffered.length then
    received.failStop (clientError .companionMessageTooLarge
      "Companion buffered data exceeded configured bound")
  else drain L o received

/-! ## Requests -/

/-- `request`, and `requestWithoutAuthentication` for a handshake. -/
def request (c : NamedPipeCompanionClient) (type : CompanionRequestType) (payload : JsValue)
    (deadlineMs : ℤ) : NamedPipeCompanionClient :=
  let waiting : WaitingCall := ⟨c.calls, type, payload, deadlineMs⟩
  let called := { c with calls := c.calls + 1 }
  if isHandshakeRequest type then { called with waiting := c.waiting ++ [waiting] }
  else if c.closed then { called with ended := c.ended ++ [waiting.refused closedError] }
  else if ¬ c.authenticated then
    { called with ended := c.ended ++ [waiting.refused (clientError .companionUnauthenticated
      "Companion request attempted before authentication")] }
  else { called with waiting := c.waiting ++ [waiting] }

/-- The checks of `send` before it writes. -/
def prepare (c : NamedPipeCompanionClient) (waiting : WaitingCall) (requestId : String) :
    Except CompanionThrown (List UInt8) :=
  if c.closed then .error closedError
  else if waiting.deadlineMs < minDeadlineMs ∨ (maxDeadlineMs : ℤ) < waiting.deadlineMs then
    .error (clientError .companionRequestTimeout
      "Companion request deadline is outside the allowed bound")
  else if o.maxInFlightRequests ≤ c.pending.length then
    .error (clientError .companionBackpressure "Companion in-flight request bound exceeded")
  else if jsLength requestId = 0 ∨ maxRequestIdLength < jsLength requestId ∨
      (c.pendingFor requestId).isSome then
    .error (clientError .companionCorrelationError "invalid or duplicate Companion requestId")
  else match L.createCompanionRequestEnvelope requestId waiting.type waiting.payload with
    | .error thrown => .error (.foreign thrown)
    | .ok envelope =>
      match frameForJson o envelope with
      | .error thrown => .error thrown
      | .ok frame =>
        if c.socket.all (·.destroyed) then
          .error (clientError .companionUnavailable "Companion pipe is not connected")
        else .ok frame

/-- What a write that throws rejects its request with. -/
def writeRejection : WriteThrown → CompanionThrown
  | .error reason => .foreign (.other reason)
  | .other => clientError .companionUnavailable "Companion frame write failed"

/-- `send` goes on when the client is connected. Its frame is handed to the socket, which may throw. -/
def send (c : NamedPipeCompanionClient) (waiting : WaitingCall) (requestId : String)
    (write : Option WriteThrown) : NamedPipeCompanionClient :=
  let sent := { c with waiting := c.waiting.erase waiting }
  match prepare L o c waiting requestId with
  | .error thrown => { sent with ended := c.ended ++ [waiting.refused thrown] }
  | .ok _ =>
    let entry : PendingRequest := ⟨waiting.call, requestId, waiting.type, true⟩
    let dispatched := { sent with pending := c.pending ++ [entry] }
    match write with
    | none => dispatched
    | some thrown => dispatched.settle entry none (.rejected (writeRejection thrown))

def deadlineExpired (c : NamedPipeCompanionClient) (entry : PendingRequest) :
    NamedPipeCompanionClient :=
  let error := .client ⟨.companionRequestTimeout, "Companion request deadline expired",
    entry.outcomeUnknown⟩
  let settled := c.settle entry none (.rejected error)
  if entry.failStopOnFailure ∨ c.buffered ≠ [] then settled.failStop error else settled

def close (c : NamedPipeCompanionClient) : NamedPipeCompanionClient :=
  if c.closed then c else { c with closed := true }.failStop closedError

/-! ## Events -/

/-- The connection has no socket that could be used. -/
def Disconnected (c : NamedPipeCompanionClient) : Prop := ∀ socket ∈ c.socket, socket.destroyed

instance (c : NamedPipeCompanionClient) : Decidable c.Disconnected :=
  inferInstanceAs (Decidable (∀ _ ∈ c.socket, _))

def Current (c : NamedPipeCompanionClient) (socket : ℕ) : Prop :=
  c.socket.map (·.id) = some socket

instance (c : NamedPipeCompanionClient) (socket : ℕ) : Decidable (c.Current socket) :=
  inferInstanceAs (Decidable (_ = _))

end NamedPipeCompanionClient

/-- What happens to the client. A connection is made, its socket is destroyed, emits bytes, an error
or its end; a call is made, goes on when it is connected, or fails before that; a deadline passes;
the handshake ends, or stops the connection; the client is closed. -/
inductive ClientEvent where
  | connect (socket : ℕ)
  | destroyed
  | data (socket : ℕ) (chunk : List UInt8)
  | socketError (socket : ℕ)
  | socketClose (socket : ℕ)
  | request (type : CompanionRequestType) (payload : JsValue) (deadlineMs : ℤ)
  | send (call : ℕ) (requestId : String) (write : Option WriteThrown)
  | abandon (call : ℕ) (thrown : CompanionThrown)
  | deadline (call : ℕ)
  | authenticated
  | identityRejected (error : NamedPipeCompanionClientError)
  | close
  deriving DecidableEq

namespace NamedPipeCompanionClient

def next (c : NamedPipeCompanionClient) : ClientEvent → NamedPipeCompanionClient
  | .connect socket =>
    if ¬ c.closed ∧ c.Disconnected then
      { c with socket := some ⟨socket, false⟩, authenticated := false, buffered := [] }
    else c
  | .destroyed => { c with socket := c.socket.map fun socket => { socket with destroyed := true } }
  | .data socket chunk => if c.Current socket then onData L o c chunk else c
  | .socketError socket =>
    if c.Current socket then c.failStop (clientError .companionUnavailable "Companion pipe error")
    else c
  | .socketClose socket =>
    if c.Current socket then c.failStop (clientError .companionUnavailable "Companion pipe closed")
    else c
  | .request type payload deadlineMs => c.request type payload deadlineMs
  | .send call requestId write =>
    match c.waiting.find? fun waiting => waiting.call = call with
    | some waiting => send L o c waiting requestId write
    | none => c
  | .abandon call thrown =>
    match c.waiting.find? fun waiting => waiting.call = call with
    | some waiting => { c with
        waiting := c.waiting.erase waiting
        ended := c.ended ++ [waiting.refused thrown] }
    | none => c
  | .deadline call =>
    match c.pending.find? fun entry => entry.call = call with
    | some entry => c.deadlineExpired entry
    | none => c
  | .authenticated =>
    if c.closed ∨ c.Disconnected then c else { c with authenticated := true }
  | .identityRejected error => c.failStop (.client error)
  | .close => c.close

end NamedPipeCompanionClient

end Library

/-! ## Executions -/

/-- What `execute` gives. -/
inductive ExecuteOutcome where
  | returned (payload : CompanionResponsePayload)
  | actionOutcomeUnknown (message : String)
  | thrown (thrown : CompanionThrown)
  deriving DecidableEq

def Settlement.execute : Settlement → ExecuteOutcome
  | .resolved payload => .returned payload
  | .rejected (.response responseError outcomeUnknown) =>
    if responseError.code = .actionOutcomeUnknown then
      .actionOutcomeUnknown responseError.safeMessage
    else .thrown (.response responseError outcomeUnknown)
  | .rejected (.client error) =>
    if error.outcomeUnknown then
      .actionOutcomeUnknown (error.code.text ++ ": " ++ error.message)
    else .thrown (.client error)
  | .rejected thrown => .thrown thrown

/-! ## A small environment -/

def sampleParsers : ResponseParsers where
  parseCompanionUiaSource value := .ok value
  parseCompanionDecision value := .ok value
  toText _ := "[object Object]"

def sampleLibrary : PipeLibrary where
  parsers := sampleParsers
  createCompanionRequestEnvelope requestId _ payload := .ok (.obj [("protocolMajor", .int 1),
    ("requestId", .str requestId), ("type", .str "action.execute"), ("payload", payload)])

end Qualigence.Desktop.Companion
