import Qualigence.Foundation.Table
import Qualigence.Foundation.Tiles
import Qualigence.Protocol.Instant
import Qualigence.Protocol.Value

/-! # Artifact uploads

A Runner registers the manifest of an artifact and uploads its chunks in any order.
`ArtifactUploadService` keeps what it received in the upload store, tells which ranges are
missing and, once there are none, assembles the bytes, checks them against the manifest and
commits them to the object store. Calls are serialized by the application.
-/

namespace Qualigence.Evidence

open Foundation Protocol

/-! ## Messages and records -/

def artifactChunkSizeBytes : ℕ := 256 * 1024

structure ArtifactByteRange where
  offset : ℕ
  length : ℕ
  deriving DecidableEq

/-- What identifies an upload. -/
structure ArtifactKey where
  tenantId : String
  projectId : String
  runId : String
  artifactId : String
  deriving DecidableEq

/-- A manifest as it arrives; the wire carries its numbers unsigned. -/
structure ArtifactUploadManifest extends ArtifactKey where
  sizeBytes : ℕ
  sha256 : String
  mediaType : String
  sensitivity : String
  chunkSizeBytes : ℕ
  totalChunks : ℕ
  deriving DecidableEq

structure ArtifactUploadChunk extends ArtifactKey where
  offset : ℕ
  bytes : List UInt8
  sha256 : String

inductive ArtifactUploadStatus where
  | registered
  | verified
  deriving DecidableEq

structure ArtifactUploadManifestRecord extends ArtifactUploadManifest where
  jobId : String
  registeredByRunnerId : String
  registeredLeaseEpoch : ℕ
  status : ArtifactUploadStatus
  createdAt : Timestamp
  relativePath : Option String
  verifiedAt : Option Timestamp

structure ArtifactUploadChunkRecord extends ArtifactUploadChunk where
  sizeBytes : ℕ
  createdAt : Timestamp

structure ArtifactUploadAck where
  artifactId : String
  runId : String
  missingRanges : List ArtifactByteRange
  acknowledged : Bool
  deriving DecidableEq

structure ArtifactUploadIdentity where
  tenantId : String
  projectId : String
  runnerId : String

structure RegisterArtifactManifestInput where
  identity : ArtifactUploadIdentity
  jobId : String
  leaseEpoch : ℕ
  manifest : ArtifactUploadManifest

structure UploadArtifactChunkInput where
  identity : ArtifactKey
  runnerId : String
  chunk : ArtifactUploadChunk

inductive ArtifactUploadErrorCode where
  | artifactUploadValidationFailed
  | artifactManifestConflict
  | artifactChunkConflict
  | artifactUploadNotRegistered
  | artifactUploadForbidden
  | artifactHashMismatch
  deriving DecidableEq

/-- What a call raises: an error of the service, a chunk outside the assembled buffer, or a
failure of the object store or the manifest store. -/
inductive UploadError where
  | service (code : ArtifactUploadErrorCode) (message : String)
  | rangeError
  | storage
  deriving DecidableEq

/-! ## The upload store -/

def ArtifactUploadManifestRecord.key (m : ArtifactUploadManifestRecord) : ArtifactKey :=
  m.toArtifactKey

def ArtifactUploadChunkRecord.key (c : ArtifactUploadChunkRecord) : ArtifactKey × ℕ :=
  (c.toArtifactKey, c.offset)

/-- The tables of the upload store, and what the object store holds of each artifact. -/
structure UploadDb where
  manifests : Table ArtifactUploadManifestRecord ArtifactUploadManifestRecord.key
  chunkRows : Table ArtifactUploadChunkRecord ArtifactUploadChunkRecord.key
  objects : ArtifactKey → Option (List UInt8)

def UploadDb.empty : UploadDb := ⟨.empty, .empty, fun _ => none⟩

inductive ArtifactUploadRegisterResult where
  | accepted (manifest : ArtifactUploadManifestRecord)
  | duplicate (manifest : ArtifactUploadManifestRecord)
  | conflict

inductive ArtifactUploadChunkResult where
  | accepted
  | duplicate
  | conflict
  deriving DecidableEq

/-- The fields that a repeated registration has to agree on. -/
def sameManifest (left right : ArtifactUploadManifestRecord) : Bool :=
  left.toArtifactUploadManifest = right.toArtifactUploadManifest ∧ left.jobId = right.jobId ∧
    left.registeredByRunnerId = right.registeredByRunnerId ∧
    left.registeredLeaseEpoch = right.registeredLeaseEpoch

namespace ArtifactUploadManifestRecord

def setVerified (relativePath : String) (verifiedAt : Timestamp)
    (m : ArtifactUploadManifestRecord) : ArtifactUploadManifestRecord :=
  { m with
    status := .verified
    relativePath := some relativePath
    verifiedAt := some verifiedAt }

theorem key_setVerified (relativePath : String) (verifiedAt : Timestamp)
    (m : ArtifactUploadManifestRecord) : (m.setVerified relativePath verifiedAt).key = m.key := rfl

end ArtifactUploadManifestRecord

namespace InMemoryArtifactUploadStore

def registerManifest (manifest : ArtifactUploadManifestRecord) (db : UploadDb) :
    ArtifactUploadRegisterResult × UploadDb :=
  match db.manifests.get manifest.key with
  | some existing =>
    if sameManifest existing manifest then (.duplicate existing, db) else (.conflict, db)
  | none => match db.manifests.insert manifest with
    | some manifests => (.accepted manifest, { db with manifests })
    | none => (.conflict, db)

def manifest (key : ArtifactKey) (db : UploadDb) : Option ArtifactUploadManifestRecord :=
  db.manifests.get key

def appendChunk (chunk : ArtifactUploadChunkRecord) (db : UploadDb) :
    ArtifactUploadChunkResult × UploadDb :=
  match db.chunkRows.get chunk.key with
  | some existing =>
    if existing.sha256 = chunk.sha256 ∧ existing.bytes = chunk.bytes then (.duplicate, db)
    else (.conflict, db)
  | none => match db.chunkRows.insert chunk with
    | some chunkRows => (.accepted, { db with chunkRows })
    | none => (.conflict, db)

/-- The order by offset in which chunks are read. -/
def byOffset (c d : ArtifactUploadChunkRecord) : Prop := c.offset ≤ d.offset

instance : DecidableRel byOffset := fun c d => inferInstanceAs (Decidable (c.offset ≤ d.offset))

def chunks (key : ArtifactKey) (db : UploadDb) : List ArtifactUploadChunkRecord :=
  (db.chunkRows.rows.filter fun c => c.toArtifactKey = key).insertionSort byOffset

def markVerified (key : ArtifactKey) (relativePath : String) (verifiedAt : Timestamp)
    (db : UploadDb) : UploadDb :=
  { db with
    manifests := db.manifests.update (fun m => m.key = key) (·.setVerified relativePath verifiedAt)
      (ArtifactUploadManifestRecord.key_setVerified _ _) }

def acknowledgedArtifactIds (runId : String) (artifactIds : List String) (db : UploadDb) :
    List String :=
  (db.manifests.rows.filter fun m =>
    m.runId = runId ∧ m.status = .verified ∧ m.artifactId ∈ artifactIds).map (·.artifactId)

end InMemoryArtifactUploadStore

/-! ## Validation -/

def maxSafeInteger : ℕ := 2 ^ 53 - 1

def nonEmpty (value : String) : Bool := !isBlank value

/-- `/^[a-f0-9]{64}$/`. -/
def isSha256Hex (s : String) : Bool :=
  s.toList.length = 64 ∧ s.toList.all fun c => ('a' ≤ c ∧ c ≤ 'f') ∨ ('0' ≤ c ∧ c ≤ '9')

def sensitivities : List String := ["public", "internal", "sensitive", "secret"]

def validateManifest (m : ArtifactUploadManifest) : Bool :=
  nonEmpty m.artifactId ∧ nonEmpty m.tenantId ∧ nonEmpty m.projectId ∧ nonEmpty m.runId ∧
    nonEmpty m.mediaType ∧ isSha256Hex m.sha256 ∧ m.sensitivity ∈ sensitivities ∧
    m.sizeBytes ≤ maxSafeInteger ∧ m.chunkSizeBytes = artifactChunkSizeBytes ∧
    m.totalChunks = (m.sizeBytes + artifactChunkSizeBytes - 1) / artifactChunkSizeBytes

def validateChunk (P : Platform) (c : ArtifactUploadChunk) : Bool :=
  nonEmpty c.artifactId ∧ nonEmpty c.tenantId ∧ nonEmpty c.projectId ∧ nonEmpty c.runId ∧
    isSha256Hex c.sha256 ∧ c.offset ≤ maxSafeInteger ∧ c.offset % artifactChunkSizeBytes = 0 ∧
    c.bytes.length ≤ artifactChunkSizeBytes ∧ P.sha256Hex c.bytes = c.sha256

def missingRanges (m : ArtifactUploadManifest) (chunks : List ArtifactUploadChunkRecord) :
    List ArtifactByteRange :=
  ((cuts m.sizeBytes m.chunkSizeBytes).filter fun offset => offset ∉ chunks.map (·.offset)).map
    fun offset => ⟨offset, min m.chunkSizeBytes (m.sizeBytes - offset)⟩

/-! ## The service -/

/-- How the commit of an assembled artifact goes: the write to the object store can fail
before or after it took effect, the written object can fail its verification, and the
manifest store or the upload store can fail to note it. -/
inductive CommitOutcome where
  | committed
  | writeFailed (stored : Bool)
  | unverified
  | noteFailed
  deriving DecidableEq

abbrev UploadResult := Except UploadError ArtifactUploadAck × UploadDb

namespace ArtifactUploadService

variable (P : Platform) (outcome : CommitOutcome) (relativePath : String) (now : Timestamp)

def refuse (code : ArtifactUploadErrorCode) (message : String) (db : UploadDb) : UploadResult :=
  (.error (.service code message), db)

def complete (m : ArtifactUploadManifestRecord) : ArtifactUploadAck :=
  ⟨m.artifactId, m.runId, [], true⟩

/-- `bytes.set(chunk.bytes, chunk.offset)` for each chunk; it raises outside the buffer. -/
def assemble (sizeBytes : ℕ) (chunks : List ArtifactUploadChunkRecord) : Option (List UInt8) :=
  if ∀ c ∈ chunks, c.offset + c.bytes.length ≤ sizeBytes then
    some (chunks.foldl (fun b c => overwrite b c.offset c.bytes) (List.replicate sizeBytes 0))
  else none

def hashMismatch (m : ArtifactUploadManifestRecord) : UploadError :=
  .service .artifactHashMismatch ("artifact " ++ m.artifactId ++ " failed final hash verification")

def verifyAndCommit (m : ArtifactUploadManifestRecord) (chunks : List ArtifactUploadChunkRecord)
    (db : UploadDb) : Except UploadError Unit × UploadDb :=
  let ordered := chunks.insertionSort InMemoryArtifactUploadStore.byOffset
  match assemble m.sizeBytes ordered with
  | none => (.error .rangeError, db)
  | some bytes =>
    if bytes.length ≠ m.sizeBytes ∨ P.sha256Hex bytes ≠ m.sha256 then
      (.error (hashMismatch m), db)
    else
      let written := { db with objects := Function.update db.objects m.key (some bytes) }
      match outcome with
      | .writeFailed stored => (.error .storage, if stored then written else db)
      | .unverified => (.error (.service .artifactHashMismatch
          ("artifact " ++ m.artifactId ++ " could not be verified after durable write")), written)
      | .noteFailed => (.error .storage, written)
      | .committed =>
        (.ok (), InMemoryArtifactUploadStore.markVerified m.key relativePath now written)

def progressFor (m : ArtifactUploadManifestRecord) (db : UploadDb) : UploadResult :=
  if m.status = .verified then (.ok (complete m), db)
  else
    let chunks := InMemoryArtifactUploadStore.chunks m.key db
    let missing := missingRanges m.toArtifactUploadManifest chunks
    if missing ≠ [] then (.ok ⟨m.artifactId, m.runId, missing, false⟩, db)
    else match verifyAndCommit P outcome relativePath now m chunks db with
      | (.error e, db') => (.error e, db')
      | (.ok _, db') => (.ok (complete m), db')

def manifestRecord (input : RegisterArtifactManifestInput) : ArtifactUploadManifestRecord :=
  { input.manifest with
    jobId := input.jobId
    registeredByRunnerId := input.identity.runnerId
    registeredLeaseEpoch := input.leaseEpoch
    status := .registered
    createdAt := now
    relativePath := none
    verifiedAt := none }

def registerManifest (input : RegisterArtifactManifestInput) (db : UploadDb) : UploadResult :=
  if !validateManifest input.manifest then
    refuse .artifactUploadValidationFailed
      "artifact manifest is missing required upload authority fields" db
  else if input.manifest.tenantId ≠ input.identity.tenantId ∨
      input.manifest.projectId ≠ input.identity.projectId then
    refuse .artifactUploadForbidden
      "artifact manifest scope does not match authenticated runner scope" db
  else match InMemoryArtifactUploadStore.registerManifest (manifestRecord now input) db with
    | (.conflict, db') => refuse .artifactManifestConflict
        ("artifact " ++ input.manifest.artifactId ++ " manifest conflicts with durable state") db'
    | (.accepted m, db') | (.duplicate m, db') => progressFor P outcome relativePath now m db'

/-- The check of a chunk against its manifest. -/
def chunkFits (c : ArtifactUploadChunk) (m : ArtifactUploadManifestRecord) : Bool :=
  c.offset < max 1 m.sizeBytes ∧ c.bytes.length = min m.chunkSizeBytes (m.sizeBytes - c.offset)

def chunkRecord (c : ArtifactUploadChunk) : ArtifactUploadChunkRecord :=
  { c with
    sizeBytes := c.bytes.length
    createdAt := now }

def uploadChunk (input : UploadArtifactChunkInput) (db : UploadDb) : UploadResult :=
  if !validateChunk P input.chunk then
    refuse .artifactUploadValidationFailed "artifact chunk is malformed or hash-invalid" db
  else if input.chunk.toArtifactKey ≠ input.identity then
    refuse .artifactUploadForbidden
      "artifact chunk scope does not match authenticated runner scope" db
  else match InMemoryArtifactUploadStore.manifest input.chunk.toArtifactKey db with
    | none => refuse .artifactUploadNotRegistered
        ("artifact " ++ input.chunk.artifactId ++ " has no registered manifest") db
    | some m =>
      if m.registeredByRunnerId ≠ input.runnerId then
        refuse .artifactUploadForbidden
          ("runner " ++ input.runnerId ++ " cannot upload artifact " ++ input.chunk.artifactId) db
      else if input.chunk.toArtifactKey ≠ m.key then
        refuse .artifactUploadForbidden
          "artifact chunk scope does not match registered manifest" db
      else if !chunkFits input.chunk m then
        refuse .artifactUploadValidationFailed
          "artifact chunk offset or length is invalid for the manifest" db
      else if m.status = .verified then (.ok (complete m), db)
      else match InMemoryArtifactUploadStore.appendChunk (chunkRecord now input.chunk) db with
        | (.conflict, db') => refuse .artifactChunkConflict
            ("artifact " ++ input.chunk.artifactId ++ " chunk at offset " ++
              toString input.chunk.offset ++ " conflicts with durable bytes") db'
        | (_, db') => progressFor P outcome relativePath now m db'

end ArtifactUploadService

/-! ## Histories -/

/-- A registration or an upload, with how a commit goes and the time. -/
inductive UploadCall where
  | registerManifest (input : RegisterArtifactManifestInput)
  | uploadChunk (input : UploadArtifactChunkInput)

structure UploadEvent where
  call : UploadCall
  outcome : CommitOutcome
  relativePath : String
  now : Timestamp

/-- The result of a call and the stores after it. -/
def UploadEvent.run (P : Platform) (e : UploadEvent) (db : UploadDb) : UploadResult :=
  match e.call with
  | .registerManifest input =>
    ArtifactUploadService.registerManifest P e.outcome e.relativePath e.now input db
  | .uploadChunk input =>
    ArtifactUploadService.uploadChunk P e.outcome e.relativePath e.now input db

/-- The stores after a sequence of calls from empty ones. -/
def UploadDb.after (P : Platform) (events : List UploadEvent) : UploadDb :=
  events.foldl (fun db e => (e.run P db).2) .empty

end Qualigence.Evidence
