import Qualigence.Core.World
import Qualigence.Evidence.ArtifactGrowth
import Qualigence.Runner.ArtifactSpool

/-! # The artifact upload pump

`ArtifactUploadPump` registers the spooled artifacts of a run at Core and uploads their chunks until
none of what Core reports missing is spooled. Captures and pumps take turns on the spool, operation
by operation; each operation can fail before or after it took effect, and a process that stops has no
more turns. Between them Core serves the calls of others.
-/

namespace Qualigence.Runner

open Foundation Protocol Evidence
open Core (Fault)

/-! ## Operations -/

structure ArtifactManifestRegistration where
  jobId : String
  runId : String
  leaseEpoch : ℕ
  leaseToken : String
  manifest : ArtifactUploadManifest

structure ArtifactChunkUpload where
  jobId : String
  runId : String
  leaseEpoch : ℕ
  leaseToken : String
  chunk : ArtifactUploadChunk

/-- The operations of the spool on artifacts, and those of a session. -/
inductive ArtifactOp where
  | saveArtifactManifest (manifest : ArtifactUploadManifest)
  | saveArtifactChunk (chunk : ArtifactUploadChunk)
  | pendingArtifactManifests (runId : String)
  | pendingArtifactChunks (runId artifactId : String) (missingRanges : List ArtifactByteRange)
  | artifactUploadProgress (runId artifactId : String)
  | acknowledgeArtifactProgress (progress : ArtifactUploadAck)
  | registerArtifactManifest (registration : ArtifactManifestRegistration)
  | uploadArtifactChunk (upload : ArtifactChunkUpload)

def ArtifactOp.Reply : ArtifactOp → Type
  | saveArtifactManifest _ | saveArtifactChunk _ | acknowledgeArtifactProgress _ => Unit
  | pendingArtifactManifests _ => List ArtifactUploadManifest
  | pendingArtifactChunks .. => List ArtifactUploadChunk
  | artifactUploadProgress .. => Option ArtifactUploadAck
  | registerArtifactManifest _ | uploadArtifactChunk _ => ArtifactUploadAck

abbrev artifactSignature : Signature := ⟨ArtifactOp, ArtifactOp.Reply⟩

/-- What ends an upload: an error of the spool, a refusal of Core, a run without a lease, or an
operation that fails or is given up. `unfinished` is none of them: the upload is still under way. -/
inductive UploadFailure where
  | spool (error : ArtifactSpoolError)
  | trace (error : RunnerSpoolError)
  | core (error : Core.CoreError)
  | artifact (error : UploadError)
  | noLease (runId : String)
  | lost
  | unfinished

abbrev Uploading (α : Type) := Program artifactSignature UploadFailure α

def Uploading.perform (op : ArtifactOp) : Uploading op.Reply :=
  Program.perform (S := artifactSignature) op

/-! ## The observer -/

namespace SpoolingArtifactObserver

variable (P : Platform)

def saveChunks : List ArtifactUploadChunk → Uploading Unit
  | [] => return
  | chunk :: chunks => do
    Uploading.perform (.saveArtifactChunk chunk)
    saveChunks chunks

/-- What `capture` does with the artifacts of a graph; each is known by its id from then on. -/
def spoolArtifacts (tenantId projectId runId : String) :
    List RawCapturedArtifact → Uploading (List (String × String))
  | [] => return []
  | artifact :: artifacts => do
    let key := keyFor P tenantId projectId runId artifact
    Uploading.perform (.saveArtifactManifest (manifestFor P key artifact))
    saveChunks (chunksFor P key artifact.bytes)
    let artifactRefs ← spoolArtifacts tenantId projectId runId artifacts
    return (artifact.name, key.artifactId) :: artifactRefs

end SpoolingArtifactObserver

/-! ## The pump -/

structure ArtifactUploadPumpResult where
  artifacts : ℕ
  acknowledged : ℕ
  deriving DecidableEq

namespace ArtifactUploadPump

variable (lease : ExecutionJobLease)

def registerManifest (manifest : ArtifactUploadManifest) : Uploading ArtifactUploadAck := do
  let registered : ArtifactUploadAck ← Uploading.perform (.registerArtifactManifest
    ⟨lease.jobId, lease.runId, lease.leaseEpoch, lease.leaseToken, manifest⟩)
  Uploading.perform (.acknowledgeArtifactProgress registered)
  return registered

/-- One pass over spooled chunks; it ends with the first answer that acknowledges the artifact. -/
def uploadChunks : ArtifactUploadAck → List ArtifactUploadChunk → Uploading ArtifactUploadAck
  | progress, [] => return progress
  | _, chunk :: chunks => do
    let progress : ArtifactUploadAck ← Uploading.perform (.uploadArtifactChunk
      ⟨lease.jobId, lease.runId, lease.leaseEpoch, lease.leaseToken, chunk⟩)
    Uploading.perform (.acknowledgeArtifactProgress progress)
    if progress.acknowledged then return progress else uploadChunks progress chunks

/-- The passes of an artifact, at most as many as the fuel. -/
def uploadMissing (manifest : ArtifactUploadManifest) :
    ℕ → ArtifactUploadAck → Uploading ArtifactUploadAck
  | 0, _ => .throw .unfinished
  | fuel + 1, progress => do
    let chunks : List ArtifactUploadChunk ← Uploading.perform (.pendingArtifactChunks
      manifest.runId manifest.artifactId progress.missingRanges)
    if chunks.isEmpty then return progress
    let progress ← uploadChunks lease progress chunks
    if progress.acknowledged then return progress else uploadMissing manifest fuel progress

/-- What the pump knows of an artifact before it uploads chunks. -/
def initialProgress (manifest : ArtifactUploadManifest) : Uploading ArtifactUploadAck := do
  let progress : Option ArtifactUploadAck ← Uploading.perform (.artifactUploadProgress
    manifest.runId manifest.artifactId)
  match progress with
  | some progress => return progress
  | none => registerManifest lease manifest

def drainManifest (fuel : ℕ) (manifest : ArtifactUploadManifest) :
    Uploading ArtifactUploadAck := do
  let initial ← initialProgress lease manifest
  if initial.acknowledged then return initial else uploadMissing lease manifest fuel initial

/-- The artifacts of a list one after another, and how many are acknowledged. -/
def drainManifests (fuel : ℕ) : List ArtifactUploadManifest → ℕ → Uploading ℕ
  | [], acknowledged => return acknowledged
  | manifest :: manifests, acknowledged => do
    let final ← drainManifest lease fuel manifest
    drainManifests fuel manifests (if final.acknowledged then acknowledged + 1 else acknowledged)

def drain (fuel : ℕ) (runId : String) : Uploading ArtifactUploadPumpResult := do
  let manifests : List ArtifactUploadManifest ← Uploading.perform (.pendingArtifactManifests runId)
  let acknowledged ← drainManifests lease fuel manifests 0
  return ⟨manifests.length, acknowledged⟩

end ArtifactUploadPump

/-! ## The spool and Core -/

/-- The spool of the Runner, the upload store of Core, and how many operations there were. -/
structure UploadWorld where
  spool : ArtifactSpoolDb
  core : UploadDb
  draws : ℕ

/-- What decides how an operation goes: the calls of others that Core serves before it, whether it
fails, the authenticated Runner, how a commit goes, the time, and what the spool holds besides. -/
structure OpCircumstances where
  others : List UploadEvent
  fault : Fault
  runnerId : String
  outcome : CommitOutcome
  relativePath : String
  now : Timestamp
  limits : ArtifactSpoolLimits

/-- The call that a registration becomes; the application refuses one whose manifest has another
tenant, project or run than the session and the job of the lease. -/
def ArtifactManifestRegistration.event (e : OpCircumstances) (r : ArtifactManifestRegistration) :
    UploadEvent where
  call := .registerManifest
    ⟨⟨r.manifest.tenantId, r.manifest.projectId, e.runnerId⟩, r.jobId, r.leaseEpoch, r.manifest⟩
  outcome := e.outcome
  relativePath := e.relativePath
  now := e.now

def ArtifactChunkUpload.event (e : OpCircumstances) (u : ArtifactChunkUpload) : UploadEvent where
  call := .uploadChunk ⟨u.chunk.toArtifactKey, e.runnerId, u.chunk⟩
  outcome := e.outcome
  relativePath := e.relativePath
  now := e.now

namespace UploadWorld

/-- An operation of the spool that changes it. -/
def onSpool (f : ArtifactSpoolDb → SqliteRunnerSpool.ArtifactResult) (w : UploadWorld) :
    Except UploadFailure Unit × UploadWorld :=
  let r := f w.spool
  (r.1.mapError .spool, { w with spool := r.2 })

/-- A call of the session at Core. -/
def onCore (P : Platform) (e : UploadEvent) (w : UploadWorld) :
    Except UploadFailure ArtifactUploadAck × UploadWorld :=
  let r := e.run P w.core
  (r.1.mapError .artifact, { w with core := r.2 })

/-- What an operation that does not fail does. -/
def act (P : Platform) (e : OpCircumstances) : (op : ArtifactOp) → UploadWorld →
    Except UploadFailure op.Reply × UploadWorld
  | .saveArtifactManifest manifest, w =>
    w.onSpool (SqliteRunnerSpool.saveArtifactManifest manifest e.now)
  | .saveArtifactChunk chunk, w => w.onSpool (SqliteRunnerSpool.saveArtifactChunk P e.limits chunk)
  | .pendingArtifactManifests runId, w =>
    (.ok (SqliteRunnerSpool.pendingArtifactManifests runId w.spool), w)
  | .pendingArtifactChunks runId artifactId missingRanges, w =>
    (.ok (SqliteRunnerSpool.pendingArtifactChunks runId artifactId missingRanges w.spool), w)
  | .artifactUploadProgress runId artifactId, w =>
    (.ok (SqliteRunnerSpool.artifactUploadProgress runId artifactId w.spool), w)
  | .acknowledgeArtifactProgress progress, w =>
    w.onSpool (SqliteRunnerSpool.acknowledgeArtifactProgress progress)
  | .registerArtifactManifest registration, w => w.onCore P (registration.event e)
  | .uploadArtifactChunk upload, w => w.onCore P (upload.event e)

/-- The world in which an operation is performed. -/
def served (P : Platform) (e : OpCircumstances) (w : UploadWorld) : UploadWorld :=
  { w with
    core := w.core.serve P e.others
    draws := w.draws + 1 }

def handler (P : Platform) (circumstances : ℕ → OpCircumstances) :
    Handler artifactSignature UploadFailure UploadWorld := fun op w =>
  let e := circumstances w.draws
  let r := act P e op (w.served P e)
  match e.fault with
  | .none => r
  | .before => (.error .lost, w.served P e)
  | .after => (.error .lost, r.2)

end UploadWorld

/-! ## Captures and pumps -/

/-- The Runner has one tenant, and a run belongs to the project of its job. -/
structure RunnerScope where
  tenantId : String
  projectOf : String → String

inductive UploadRequest where
  | capture (runId : String) (artifacts : List RawCapturedArtifact)
  | drain (lease : ExecutionJobLease) (fuel : ℕ) (runId : String)

def UploadRequest.body (P : Platform) (scope : RunnerScope) : UploadRequest → Uploading Unit
  | .capture runId artifacts => do
    let _ ← SpoolingArtifactObserver.spoolArtifacts P scope.tenantId (scope.projectOf runId) runId
      artifacts
    return
  | .drain lease fuel runId => do
    let _ ← ArtifactUploadPump.drain lease fuel runId
    return

/-- Captures and pumps after a sequence of turns, from an empty spool and what calls left at Core. -/
def uploadsAfter (P : Platform) (scope : RunnerScope) (circumstances : ℕ → OpCircumstances)
    (events : List UploadEvent) (turns : List (Turn UploadRequest)) :
    Pool artifactSignature UploadFailure Unit UploadWorld UploadRequest :=
  Pool.runs (UploadWorld.handler P circumstances) (UploadRequest.body P scope)
    ⟨⟨.empty, UploadDb.after P events, 0⟩, []⟩ turns

end Qualigence.Runner
