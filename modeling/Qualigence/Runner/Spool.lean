import Mathlib.Algebra.GroupWithZero.Nat
import Qualigence.Foundation.Table
import Qualigence.Trace.Store

/-! # Recording, spooling and pumping a trace

On the Runner a recorder numbers the events of a run and writes them to a spool on disk; a
pump reads the next window of the spool, submits it and removes what Core acknowledged.
The spool survives a restart of the Runner; the counters of a recorder and the cursor of a
pump do not.
-/

namespace Qualigence.Runner

open Foundation Protocol Trace

/-! ## The spool -/

/-- A row of `spool_events`; the envelope is what parsing its stored text gives. -/
structure SpoolRow where
  event : TraceEvent
  sizeBytes : ℕ

def SpoolRow.key (r : SpoolRow) : String × ℕ := eventKey r.event

structure SpoolDb where
  events : Table SpoolRow SpoolRow.key
  cursors : String → Option ℕ

def SpoolDb.empty : SpoolDb := ⟨.empty, fun _ => none⟩

inductive RunnerSpoolError where
  | spoolIntegrityViolation
  | spoolCapacityExceeded
  deriving DecidableEq

/-- The limits of the spool, how it measures an event, and how many bytes its other tables
take. -/
structure SpoolLimits where
  hardLimitBytes : ℕ
  measureEventBytes : TraceEvent → ℕ
  artifactBytes : ℕ

structure SpoolBatchLimit where
  maximumEvents : ℕ
  maximumBytes : ℕ

/-- `JSON.parse(JSON.stringify(event))`. -/
def jsonEvent (event : TraceEvent) : TraceEvent := { event with payload := event.payload.json }

namespace SqliteRunnerSpool

def currentBytes (limits : SpoolLimits) (db : SpoolDb) : ℕ :=
  (db.events.rows.map (·.sizeBytes)).sum + limits.artifactBytes

/-- A new row is written: the number is not spooled and the row fits. -/
def inserts (limits : SpoolLimits) (event : TraceEvent) (db : SpoolDb) : Bool :=
  (db.events.get (eventKey event)).isNone ∧
    currentBytes limits db + limits.measureEventBytes event ≤ limits.hardLimitBytes

def append (limits : SpoolLimits) (event : TraceEvent) (db : SpoolDb) :
    Except RunnerSpoolError Unit × SpoolDb :=
  let size := limits.measureEventBytes event
  match db.events.get (eventKey event) with
  | some existing =>
    if existing.event.payloadHash = event.payloadHash then (.ok (), db)
    else (.error .spoolIntegrityViolation, db)
  | none =>
    if limits.hardLimitBytes < currentBytes limits db + size then
      (.error .spoolCapacityExceeded, db)
    else match db.events.insert ⟨jsonEvent event, size⟩ with
      | some events => (.ok (), { db with events })
      | none => (.error .spoolIntegrityViolation, db)

/-- The events of a window: the number limit always counts, the size limit from the second
event on. -/
def window (limit : SpoolBatchLimit) : List SpoolRow → ℕ → ℕ → List TraceEvent
  | [], _, _ => []
  | row :: rows, count, bytes =>
    if limit.maximumEvents ≤ count then []
    else if 0 < count ∧ limit.maximumBytes < bytes + row.sizeBytes then []
    else row.event :: window limit rows (count + 1) (bytes + row.sizeBytes)

def pending (runId : String) (fromSequence : ℕ) (limit : SpoolBatchLimit) (db : SpoolDb) :
    List TraceEvent :=
  let rows := db.events.rows.filter fun r =>
    r.event.runId = runId ∧ fromSequence ≤ r.event.sequenceNumber
  window limit
    (rows.insertionSort fun a b => a.event.sequenceNumber ≤ b.event.sequenceNumber) 0 0

/-- The rows that an acknowledgement deletes. -/
def isAcknowledged (runId : String) (next : ℕ) (r : SpoolRow) : Bool :=
  r.event.runId = runId ∧ r.event.sequenceNumber < next

def acknowledge (runId : String) (nextExpectedSequenceNumber : ℕ) (db : SpoolDb) : SpoolDb where
  events := db.events.delete (isAcknowledged runId nextExpectedSequenceNumber)
  cursors := Function.update db.cursors runId
    (some (max ((db.cursors runId).getD 1) nextExpectedSequenceNumber))

end SqliteRunnerSpool

/-! ## The recorder -/

/-- What the runtime hands the recorder; the type of every stage has a payload. -/
structure TraceEventInput where
  runId : String
  stage : String
  stepIndex : Option ℕ
  payload : JsValue
  payload_ne : payload ≠ .undefined

namespace SpoolingTraceRecorder

/-- The event of an input without its hash. -/
def withEnvelope (input : TraceEventInput) (sequenceNumber : ℕ) : TraceEvent where
  protocolVersion := "runner-protocol/v1"
  schemaVersion := "trace-event/v1"
  messageId := input.runId ++ ":" ++ toString sequenceNumber
  idempotencyKey := input.runId ++ ":" ++ toString sequenceNumber
  runId := input.runId
  sequenceNumber := sequenceNumber
  stepIndex := input.stepIndex
  stage := input.stage
  occurredAt := "2026-08-01T00:00:00.000Z"
  payloadHash := ""
  payload := input.payload

/-- The hash covers everything else; without a canonical text it raises. -/
def withHash (P : Platform) (event : TraceEvent) : Option TraceEvent :=
  (canonicalTraceEventHash P event).map fun payloadHash => { event with payloadHash }

end SpoolingTraceRecorder

/-- The next number of each run, as one recorder counts. -/
abbrev Recorder := String → ℕ

/-- A recorder that has not recorded anything. -/
def Recorder.fresh : Recorder := fun _ => 1

inductive RecordError where
  | observationError
  | typeError
  | spool (cause : RunnerSpoolError)
  | terminalTracePersistenceError (cause : RunnerSpoolError)
  deriving DecidableEq

namespace SpoolingTraceRecorder

variable (P : Platform) (validObservation : JsValue → Bool)

/-- The event that a recorder makes of an input under a number; an observation is validated
first. -/
def toEvent (input : TraceEventInput) (sequenceNumber : ℕ) : Except RecordError TraceEvent :=
  if input.stage = "observation" ∧ ¬ validObservation input.payload then .error .observationError
  else match withHash P (withEnvelope input sequenceNumber) with
    | some event => .ok event
    | none => .error .typeError

/-- Record an input; the counter moves on when the spool has the event. -/
def append (limits : SpoolLimits) (input : TraceEventInput) (recorder : Recorder)
    (db : SpoolDb) : Except RecordError TraceEvent × Recorder × SpoolDb :=
  let sequenceNumber := recorder input.runId
  match toEvent P validObservation input sequenceNumber with
  | .error e => (.error e, recorder, db)
  | .ok event => match SqliteRunnerSpool.append limits event db with
    | (.ok _, db') =>
      (.ok event, Function.update recorder input.runId (sequenceNumber + 1), db')
    | (.error cause, db') =>
      (.error (if input.stage = "run_completed" then .terminalTracePersistenceError cause
        else .spool cause), recorder, db')

end SpoolingTraceRecorder

/-! ## The pump -/

/-- One pump with the batch whose acknowledgement it waits for. -/
structure TraceUploadPump where
  runId : String
  cursor : ℕ
  limit : SpoolBatchLimit
  waiting : Option ExecutionEventBatch

namespace TraceUploadPump

/-- A new pump of a run starts at the first event. -/
def start (runId : String) (limit : SpoolBatchLimit) : TraceUploadPump := ⟨runId, 1, limit, none⟩

/-- The next batch, unless nothing is pending. -/
def nextBatch (pump : TraceUploadPump) (batchId : String) (db : SpoolDb) :
    Option ExecutionEventBatch :=
  match SqliteRunnerSpool.pending pump.runId pump.cursor pump.limit db with
  | [] => none
  | first :: events => some ⟨batchId, pump.runId, first.sequenceNumber, first :: events⟩

/-- After the spool was acknowledged. -/
def advance (pump : TraceUploadPump) (next : ℕ) : TraceUploadPump :=
  { pump with cursor := max pump.cursor next, waiting := none }

end TraceUploadPump

/-! ## The wire -/

/-- What `payload_json` is parsed to: an absent payload has no text, and an empty text is
read as `null`. -/
def wirePayload : JsValue → JsValue
  | .undefined => .null
  | v => v.json

/-- `traceEventFromWire(traceEventToWire(event))`. -/
def wireEvent (event : TraceEvent) : TraceEvent :=
  { event with payload := wirePayload event.payload }

/-- `eventBatchFromWire(eventBatchToWire(batch))`; both sides validate observations. -/
def wireBatch (validObservation : JsValue → Bool) (batch : ExecutionEventBatch) :
    Option ExecutionEventBatch :=
  if ∀ e ∈ batch.events, e.stage = "observation" →
      validObservation e.payload ∧ validObservation (wirePayload e.payload) then
    some { batch with events := batch.events.map wireEvent }
  else none

/-! ## What the recorder writes -/

section Record

variable {P : Platform} {validObservation : JsValue → Bool} {limits : SpoolLimits}
  {input : TraceEventInput} {event : TraceEvent} {db : SpoolDb}

theorem wirePayload_of_ne {v : JsValue} (h : v ≠ .undefined) : wirePayload v = v.json := by
  cases v with
  | undefined => exact absurd rfl h
  | _ => rfl

/-- An event that was parsed from its text crosses the wire unchanged. -/
theorem wireEvent_jsonEvent (h : event.payload ≠ .undefined) :
    wireEvent (jsonEvent event) = jsonEvent event := by
  have hw : wirePayload event.payload.json = event.payload.json := by
    rw [wirePayload_of_ne (JsValue.json_ne_undefined h), JsValue.json_json]
  unfold wireEvent jsonEvent
  rw [hw]

theorem toEvent_ok {n : ℕ}
    (h : SpoolingTraceRecorder.toEvent P validObservation input n = .ok event) :
    event.runId = input.runId ∧ event.sequenceNumber = n ∧ event.payload ≠ .undefined := by
  unfold SpoolingTraceRecorder.toEvent at h
  split at h
  · cases h
  split at h
  · next event' hh =>
    cases h
    obtain ⟨payloadHash, -, rfl⟩ := Option.map_eq_some_iff.mp hh
    exact ⟨rfl, rfl, input.payload_ne⟩
  · cases h

theorem append_of_inserts (h : SqliteRunnerSpool.inserts limits event db) :
    ∃ events, db.events.insert ⟨jsonEvent event, limits.measureEventBytes event⟩ = some events ∧
      SqliteRunnerSpool.append limits event db = (.ok (), { db with events }) := by
  obtain ⟨hfresh, hroom⟩ := of_decide_eq_true h
  have hnone := Option.isNone_iff_eq_none.mp hfresh
  cases hins : db.events.insert ⟨jsonEvent event, limits.measureEventBytes event⟩ with
  | none =>
    have hs := Table.insert_eq_none_iff.mp hins
    change (db.events.get (eventKey event)).isSome at hs
    rw [hnone] at hs
    cases hs
  | some events =>
    refine ⟨events, rfl, ?_⟩
    unfold SqliteRunnerSpool.append
    simp only [hnone, hins, if_neg (not_lt.mpr hroom)]

theorem append_of_not_inserts (h : ¬ SqliteRunnerSpool.inserts limits event db) :
    (SqliteRunnerSpool.append limits event db).2 = db := by
  unfold SqliteRunnerSpool.append
  dsimp only
  split
  · split <;> rfl
  next hnone =>
  split
  · rfl
  next hroom =>
  refine absurd (decide_eq_true ⟨?_, not_lt.mp hroom⟩) h
  rw [hnone]
  rfl

theorem toEvent_of_append {recorder recorder' : Recorder} {db' : SpoolDb}
    (h : SpoolingTraceRecorder.append P validObservation limits input recorder db =
      (.ok event, recorder', db')) :
    SpoolingTraceRecorder.toEvent P validObservation input (recorder input.runId) = .ok event ∧
      db' = (SqliteRunnerSpool.append limits event db).2 := by
  unfold SpoolingTraceRecorder.append at h
  dsimp only at h
  split at h
  · cases h
  next event' he =>
  split at h
  · next u db'' happ =>
    cases h
    exact ⟨he, by rw [happ]⟩
  · cases h

end Record

/-! ## What the spool hands out -/

section Pending

variable {limit : SpoolBatchLimit} {db : SpoolDb}

theorem mem_of_mem_window {rows : List SpoolRow} {count bytes : ℕ} {event : TraceEvent}
    (h : event ∈ SqliteRunnerSpool.window limit rows count bytes) :
    ∃ r ∈ rows, r.event = event := by
  induction rows generalizing count bytes with
  | nil => cases h
  | cons row rows ih =>
    unfold SqliteRunnerSpool.window at h
    split at h
    · cases h
    split at h
    · cases h
    rcases List.mem_cons.mp h with rfl | h
    · exact ⟨row, List.mem_cons_self, rfl⟩
    · obtain ⟨r, hr, he⟩ := ih h
      exact ⟨r, List.mem_cons_of_mem _ hr, he⟩

/-- Pending events are rows of the run in the spool. -/
theorem mem_of_mem_pending {runId : String} {fromSequence : ℕ} {event : TraceEvent}
    (h : event ∈ SqliteRunnerSpool.pending runId fromSequence limit db) :
    event.runId = runId ∧ ∃ r ∈ db.events.rows, r.event = event := by
  obtain ⟨r, hr, rfl⟩ := mem_of_mem_window h
  obtain ⟨hrow, hp⟩ := List.mem_filter.mp (List.mem_insertionSort _ |>.mp hr)
  exact ⟨(of_decide_eq_true hp).1, r, hrow, rfl⟩

theorem mem_of_nextBatch {pump : TraceUploadPump} {batchId : String}
    {batch : ExecutionEventBatch} (h : pump.nextBatch batchId db = some batch) :
    batch.runId = pump.runId ∧ batch.events ≠ [] ∧ ∀ event ∈ batch.events,
      event.runId = pump.runId ∧ ∃ r ∈ db.events.rows, r.event = event := by
  unfold TraceUploadPump.nextBatch at h
  split at h
  · cases h
  · next first events hp =>
    cases h
    refine ⟨rfl, List.cons_ne_nil _ _, fun event he => ?_⟩
    rw [← hp] at he
    exact mem_of_mem_pending he

end Pending

end Qualigence.Runner
