import Qualigence.Foundation.Careful
import Qualigence.Runner.ArtifactPump

/-! # Replaying what is spooled

The trace of a run is drained to Core batch by batch, and its artifacts are drained before it. After
a reconnect everything that is pending is replayed, run by run.
-/

namespace Qualigence.Runner

open Foundation Protocol Trace Evidence

/-- What a pump asks of the spool, of the session and of the signal it is given. -/
inductive ReplayOp where
  | throwIfAborted
  | artifact (op : ArtifactOp)
  | pending (runId : String) (fromSequence : ℕ) (limit : SpoolBatchLimit)
  | acknowledge (runId : String) (nextExpectedSequenceNumber : ℕ)
  | pendingRunIds
  | loadLeaseForRun (runId : String)
  | batchLimit
  | generateBatchId
  | submit (batch : ExecutionEventBatch)

def ReplayOp.Reply : ReplayOp → Type
  | throwIfAborted | acknowledge .. => Unit
  | artifact op => op.Reply
  | pending .. => List TraceEvent
  | pendingRunIds => List String
  | loadLeaseForRun _ => Option ExecutionJobLease
  | batchLimit => SpoolBatchLimit
  | generateBatchId => String
  | submit _ => ExecutionEventAck

abbrev replaySignature : Signature := ⟨ReplayOp, ReplayOp.Reply⟩

abbrev Replaying (α : Type) := Program replaySignature UploadFailure α

def Replaying.perform (op : ReplayOp) : Replaying op.Reply :=
  Program.perform (S := replaySignature) op

/-- Uploads of artifacts. -/
def Uploading.replayed {α : Type} (p : Uploading α) : Replaying α :=
  Program.relabel ReplayOp.artifact (fun _ r => r) id id p

/-- The runs with events or artifacts in the spool, `ORDER BY run_id`. -/
def SqliteRunnerSpool.pendingRunIds (db : SpoolDb) (artifacts : ArtifactSpoolDb) : List String :=
  (db.events.rows.map (·.event.runId) ++ artifacts.manifests.rows.map (·.manifest.runId)).eraseDups
    |>.mergeSort fun a b => utf8Bytes a ≤ utf8Bytes b

structure TraceUploadPumpResult where
  submitted : ℕ
  done : Bool
  deriving DecidableEq

namespace TraceUploadPump

variable (runId : String) (limit : SpoolBatchLimit)

/-- At most one batch, with the cursor after it. -/
def pumpOnce (cursor : ℕ) : Replaying (ℕ × TraceUploadPumpResult) := do
  Replaying.perform .throwIfAborted
  let events : List TraceEvent ← Replaying.perform (.pending runId cursor limit)
  match events with
  | [] => return (cursor, ⟨0, true⟩)
  | first :: events =>
    let batchId : String ← Replaying.perform .generateBatchId
    Replaying.perform .throwIfAborted
    let ack : ExecutionEventAck ← Replaying.perform
      (.submit ⟨batchId, runId, first.sequenceNumber, first :: events⟩)
    Replaying.perform .throwIfAborted
    Replaying.perform (.acknowledge runId ack.nextExpectedSequenceNumber)
    Replaying.perform .throwIfAborted
    let cursor := max cursor ack.nextExpectedSequenceNumber
    let remaining : List TraceEvent ← Replaying.perform (.pending runId cursor limit)
    return (cursor, ⟨events.length + 1, remaining.isEmpty⟩)

/-- Batch after batch, at most as many as the fuel. -/
def drain : ℕ → ℕ → Replaying Unit
  | 0, _ => .throw .unfinished
  | fuel + 1, cursor => do
    let (cursor, result) ← pumpOnce runId limit cursor
    if result.done then return else drain fuel cursor

end TraceUploadPump

/-- Artifacts that are pending need the lease of their run. -/
def replayArtifacts (fuel : ℕ) (runId : String) (artifacts : List ArtifactUploadManifest) :
    Replaying Unit :=
  if artifacts.isEmpty then return
  else do
    let lease : Option ExecutionJobLease ← Replaying.perform (.loadLeaseForRun runId)
    match lease with
    | none => .throw (.noLease runId)
    | some lease =>
      let _ ← (ArtifactUploadPump.drain lease fuel runId).replayed
      return

/-- The artifacts of a run are replayed before its trace. -/
def replayRun (fuel : ℕ) (runId : String) : Replaying Unit := do
  Replaying.perform .throwIfAborted
  let artifacts : List ArtifactUploadManifest ← Replaying.perform
    (.artifact (.pendingArtifactManifests runId))
  replayArtifacts fuel runId artifacts
  let limit : SpoolBatchLimit ← Replaying.perform .batchLimit
  TraceUploadPump.drain runId limit fuel 1

def replayRuns (fuel : ℕ) : List String → Replaying Unit
  | [] => return
  | runId :: runIds => do
    replayRun fuel runId
    replayRuns fuel runIds

def replayPendingRuns (fuel : ℕ) : Replaying (List String) := do
  let pendingRunIds : List String ← Replaying.perform .pendingRunIds
  replayRuns fuel pendingRunIds
  return pendingRunIds

end Qualigence.Runner
