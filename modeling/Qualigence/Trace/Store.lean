import Qualigence.Foundation.Table
import Qualigence.Protocol.Messages

/-! # The trace store

Runs with their cursors, trace events and findings as the SQLite store keeps them. An
event is accepted only at the cursor of its run; a repeated event is recognised by its
hash. Events and findings need the row of their run.
-/

namespace Qualigence.Trace

open Foundation Protocol

/-- A violated constraint, a value that cannot be bound, or a step that failed. -/
inductive TraceStoreError where
  | foreignKeyViolation (table : String)
  | unbindable
  | storeUnavailable
  deriving DecidableEq

structure RunRow where
  runId : String
  nextSequenceNumber : ℕ
  deriving DecidableEq

structure FindingRow where
  findingId : String
  runId : String
  payloadHash : Option String
  envelope : JsValue
  createdAt : Timestamp

/-- The primary key of `trace_events`; the other columns are the event itself. -/
def eventKey (e : TraceEvent) : String × ℕ := (e.runId, e.sequenceNumber)

structure TraceDb where
  runs : Table RunRow RunRow.runId
  events : Table TraceEvent eventKey
  findings : Table FindingRow FindingRow.findingId

def TraceDb.initial : TraceDb := ⟨.empty, .empty, .empty⟩

inductive TraceAppendResult where
  | accepted (nextSequenceNumber : ℕ)
  | duplicate (nextSequenceNumber : ℕ)
  | sequenceGap (expectedSequenceNumber : ℕ)
  | hashMismatch (declaredPayloadHash : String) (computedPayloadHash : Option String)
  | integrityViolation (existingPayloadHash : String)
  | artifactUnacknowledged (missingArtifactIds : List String)
  deriving DecidableEq

inductive FindingAppendResult where
  | accepted
  | duplicate
  | integrityViolation (existingPayloadHash : Option String)
  deriving DecidableEq

abbrev TraceResult (α : Type) := Except TraceStoreError α × TraceDb

namespace RunRow

def setNext (n : ℕ) (r : RunRow) : RunRow := { r with nextSequenceNumber := n }

theorem runId_setNext (n : ℕ) (r : RunRow) : (r.setNext n).runId = r.runId := rfl

end RunRow

/-- `nextTraceSequenceNumber`. -/
def cursor (runId : String) (db : TraceDb) : ℕ :=
  ((db.runs.get runId).map (·.nextSequenceNumber)).getD 1

namespace SqliteTraceStore

/-- Insert an event at the cursor and move the cursor on. -/
def insertEvent (event : TraceEvent) (db : TraceDb) : TraceResult TraceAppendResult :=
  let next := cursor event.runId db + 1
  match db.runs.get event.runId, db.events.insert event with
  | some _, some events =>
    (.ok (.accepted next), { db with
      events
      runs := db.runs.update (fun r => r.runId = event.runId) (·.setNext next)
        (RunRow.runId_setNext next) })
  | _, _ => (.error (.foreignKeyViolation "trace_events"), db)

def appendTraceEvent (event : TraceEvent) (db : TraceDb) : TraceResult TraceAppendResult :=
  match db.events.get (eventKey event) with
  | some existing =>
    if existing.payloadHash = event.payloadHash then
      (.ok (.duplicate (cursor event.runId db)), db)
    else (.ok (.integrityViolation existing.payloadHash), db)
  | none =>
    if event.sequenceNumber ≠ cursor event.runId db then
      (.ok (.sequenceGap (cursor event.runId db)), db)
    else match db.events.rows.find? fun e => e.idempotencyKey = event.idempotencyKey with
      | some conflict => (.ok (.integrityViolation conflict.payloadHash), db)
      | none => match db.events.rows.find? fun e => e.messageId = event.messageId with
        | some conflict => (.ok (.integrityViolation conflict.payloadHash), db)
        | none => insertEvent event db

/-- A property of whatever payload arrived as a finding. -/
def findingField (key : String) : JsValue → JsValue
  | .obj fields => JsValue.field key fields
  | _ => .undefined

def appendFinding (P : Platform) (finding : JsValue) (payloadHash : Option String)
    (createdAt : Timestamp) (db : TraceDb) : TraceResult FindingAppendResult :=
  match P.bindText (findingField "findingId" finding) with
  | none => (.error .unbindable, db)
  | some findingId => match db.findings.get findingId with
    | some existing =>
      if existing.payloadHash = payloadHash then (.ok .duplicate, db)
      else (.ok (.integrityViolation existing.payloadHash), db)
    | none => match P.bindText (findingField "runId" finding) with
      | none => (.error .unbindable, db)
      | some runId =>
        match db.runs.get runId,
          db.findings.insert ⟨findingId, runId, payloadHash, finding, createdAt⟩ with
        | some _, some findings => (.ok .accepted, { db with findings })
        | _, _ => (.error (.foreignKeyViolation "findings"), db)

def eventAt (runId : String) (sequenceNumber : ℕ) (db : TraceDb) : Option TraceEvent :=
  db.events.get (runId, sequenceNumber)

end SqliteTraceStore

end Qualigence.Trace
