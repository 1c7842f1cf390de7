import Qualigence.Evidence.ArtifactUpload
import Qualigence.Runner.Spool

/-! # Artifacts in the spool

The observer of a run writes what it captured to the spool, the manifest of an artifact first and
then its chunks. The spool keeps them until Core acknowledged them: an acknowledgement of the whole
artifact removes it, and one that reports missing ranges is kept and removes the chunks outside
them.
-/

namespace Qualigence.Runner

open Foundation Protocol Evidence

/-! ## Tables -/

/-- A row of `spool_artifact_manifests`; the manifest is what parsing its stored text gives. -/
structure SpoolManifestRow where
  manifest : ArtifactUploadManifest
  createdAt : Timestamp

def SpoolManifestRow.key (r : SpoolManifestRow) : String := r.manifest.artifactId

/-- The primary key of `spool_artifact_chunks`. -/
def chunkKey (c : ArtifactUploadChunk) : String × ℕ := (c.artifactId, c.offset)

/-- The artifact tables; chunks and progress refer to the row of their manifest. -/
structure ArtifactSpoolDb where
  manifests : Table SpoolManifestRow SpoolManifestRow.key
  chunks : Table ArtifactUploadChunk chunkKey
  progress : String → Option ArtifactUploadAck

def ArtifactSpoolDb.empty : ArtifactSpoolDb := ⟨.empty, .empty, fun _ => none⟩

/-- An error of the spool, or a row without its manifest. -/
inductive ArtifactSpoolError where
  | spool (error : RunnerSpoolError)
  | foreignKey
  deriving DecidableEq

/-- The limit of the spool, and how many bytes its events take. -/
structure ArtifactSpoolLimits where
  hardLimitBytes : ℕ
  eventBytes : ℕ

/-- The offset lies in one of the ranges. -/
def isMissing (missingRanges : List ArtifactByteRange) (offset : ℕ) : Bool :=
  missingRanges.any fun range => range.offset ≤ offset ∧ offset < range.offset + range.length

/-- The rows of `ORDER BY created_at, artifact_id`. -/
def manifestLe (r r' : SpoolManifestRow) : Bool :=
  if r.createdAt = r'.createdAt then
    utf8Bytes r.manifest.artifactId ≤ utf8Bytes r'.manifest.artifactId
  else utf8Bytes r.createdAt ≤ utf8Bytes r'.createdAt

namespace SqliteRunnerSpool

abbrev ArtifactResult := Except ArtifactSpoolError Unit × ArtifactSpoolDb

def saveArtifactManifest (manifest : ArtifactUploadManifest) (createdAt : Timestamp)
    (db : ArtifactSpoolDb) : ArtifactResult :=
  match db.manifests.get manifest.artifactId with
  | some existing =>
    if existing.manifest = manifest then (.ok (), db)
    else (.error (.spool .spoolIntegrityViolation), db)
  | none => match db.manifests.insert ⟨manifest, createdAt⟩ with
    | some manifests => (.ok (), { db with manifests })
    | none => (.error (.spool .spoolIntegrityViolation), db)

def artifactBytes (db : ArtifactSpoolDb) : ℕ := (db.chunks.rows.map (·.bytes.length)).sum

def saveArtifactChunk (P : Platform) (limits : ArtifactSpoolLimits) (chunk : ArtifactUploadChunk)
    (db : ArtifactSpoolDb) : ArtifactResult :=
  if P.sha256Hex chunk.bytes ≠ chunk.sha256 then (.error (.spool .spoolIntegrityViolation), db)
  else match db.chunks.get (chunkKey chunk) with
    | some existing =>
      if existing.sha256 = chunk.sha256 ∧ existing.bytes = chunk.bytes then (.ok (), db)
      else (.error (.spool .spoolIntegrityViolation), db)
    | none =>
      if limits.hardLimitBytes < limits.eventBytes + artifactBytes db + chunk.bytes.length then
        (.error (.spool .spoolCapacityExceeded), db)
      else if (db.manifests.get chunk.artifactId).isNone then (.error .foreignKey, db)
      else match db.chunks.insert chunk with
        | some chunks => (.ok (), { db with chunks })
        | none => (.error (.spool .spoolIntegrityViolation), db)

def pendingArtifactManifests (runId : String) (db : ArtifactSpoolDb) :
    List ArtifactUploadManifest :=
  ((db.manifests.rows.filter fun r => r.manifest.runId = runId).mergeSort manifestLe).map
    (·.manifest)

def pendingArtifactChunks (runId artifactId : String) (missingRanges : List ArtifactByteRange)
    (db : ArtifactSpoolDb) : List ArtifactUploadChunk :=
  let rows := (db.chunks.rows.filter fun c => c.runId = runId ∧ c.artifactId = artifactId).mergeSort
    fun c d => c.offset ≤ d.offset
  rows.filter fun c => isMissing missingRanges c.offset

/-- The columns of a progress row are those of its text. -/
def artifactUploadProgress (runId artifactId : String) (db : ArtifactSpoolDb) :
    Option ArtifactUploadAck :=
  (db.progress artifactId).filter fun progress => progress.runId = runId

/-- The manifest of an acknowledged artifact is deleted, and what refers to it with it. -/
def deletesManifest (progress : ArtifactUploadAck) (db : ArtifactSpoolDb) : Bool :=
  (db.manifests.get progress.artifactId).any fun r => r.manifest.runId = progress.runId

/-- The chunks that an acknowledgement deletes. -/
def deletesChunk (progress : ArtifactUploadAck) (db : ArtifactSpoolDb)
    (c : ArtifactUploadChunk) : Bool :=
  c.artifactId = progress.artifactId ∧
    if progress.acknowledged then c.runId = progress.runId ∨ deletesManifest progress db
    else c.runId = progress.runId ∧ !isMissing progress.missingRanges c.offset

def acknowledgeArtifactProgress (progress : ArtifactUploadAck) (db : ArtifactSpoolDb) :
    ArtifactResult :=
  let chunks := db.chunks.delete (deletesChunk progress db)
  if progress.acknowledged then
    let kept := (db.progress progress.artifactId).filter fun stored =>
      stored.runId ≠ progress.runId ∧ !deletesManifest progress db
    (.ok (),
      { chunks
        manifests := db.manifests.delete fun r =>
          r.manifest.artifactId = progress.artifactId ∧ r.manifest.runId = progress.runId
        progress := Function.update db.progress progress.artifactId kept })
  else if (db.manifests.get progress.artifactId).isNone then (.error .foreignKey, db)
  else
    (.ok (),
      { db with
        chunks
        progress := Function.update db.progress progress.artifactId (some progress) })

end SqliteRunnerSpool

/-! ## The observer -/

inductive CapturedMediaType where
  | png
  | json
  deriving DecidableEq

def CapturedMediaType.text : CapturedMediaType → String
  | .png => "image/png"
  | .json => "application/json"

structure RawCapturedArtifact where
  name : String
  mediaType : CapturedMediaType
  bytes : List UInt8
  deriving DecidableEq

namespace SpoolingArtifactObserver

variable (P : Platform)

def extensionFor (artifact : RawCapturedArtifact) : String :=
  match artifact.mediaType with
  | .png => ".png"
  | .json => ".json"

/-- `sha256(text).slice(0, length)`. -/
def hashPrefix (text : String) (length : ℕ) : String :=
  String.ofList ((P.sha256Hex (utf8Bytes text)).toList.take length)

def artifactIdFor (runId : String) (artifact : RawCapturedArtifact) : String :=
  let identity := runId ++ "\x00" ++ artifact.name ++ "\x00" ++ P.sha256Hex artifact.bytes
  "run-" ++ hashPrefix P runId 16 ++ "-artifact-" ++ hashPrefix P identity 32 ++
    extensionFor artifact

/-- What identifies the upload of a captured artifact. -/
def keyFor (tenantId projectId runId : String) (artifact : RawCapturedArtifact) : ArtifactKey :=
  ⟨tenantId, projectId, runId, artifactIdFor P runId artifact⟩

def manifestFor (key : ArtifactKey) (artifact : RawCapturedArtifact) : ArtifactUploadManifest where
  toArtifactKey := key
  sizeBytes := artifact.bytes.length
  sha256 := P.sha256Hex artifact.bytes
  mediaType := artifact.mediaType.text
  sensitivity := "internal"
  chunkSizeBytes := artifactChunkSizeBytes
  totalChunks :=
    (artifact.bytes.length + artifactChunkSizeBytes - 1) / artifactChunkSizeBytes

/-- `bytes.slice(offset, Math.min(bytes.length, offset + ARTIFACT_CHUNK_SIZE_BYTES))`. -/
def sliceAt (bytes : List UInt8) (offset : ℕ) : List UInt8 :=
  (bytes.drop offset).take artifactChunkSizeBytes

def chunkAt (key : ArtifactKey) (bytes : List UInt8) (offset : ℕ) : ArtifactUploadChunk where
  toArtifactKey := key
  offset := offset
  bytes := sliceAt bytes offset
  sha256 := P.sha256Hex (sliceAt bytes offset)

def chunksFor (key : ArtifactKey) (bytes : List UInt8) : List ArtifactUploadChunk :=
  (cuts bytes.length artifactChunkSizeBytes).map (chunkAt P key bytes)

end SpoolingArtifactObserver

end Qualigence.Runner
