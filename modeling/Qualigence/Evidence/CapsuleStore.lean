import Qualigence.Evidence.Contracts
import Qualigence.Foundation.Program
import Qualigence.Foundation.Table

/-! # The store of evidence capsules

The SQLite store keeps the revisions of each capsule with their ciphertexts. A revision is
saved in one transaction. A revocation, a deletion and an expiry are several statements, and
other operations take turns between them.
-/

namespace Qualigence.Evidence.CapsuleStore

open Foundation

inductive RevocationState where
  | active
  | revoked
  deriving DecidableEq

/-- A row of `evidence_capsule_manifests`. The columns that repeat the manifest are kept as
the manifest. -/
structure ManifestRow where
  capsuleId : String
  revision : Int
  parentRevision : Option Int
  profileId : String
  manifest : RemoteEvidenceCapsuleManifest
  ciphertext : Option (List UInt8)
  revocationState : RevocationState
  revokedAt : Option String
  revokedReason : Option String
  createdAt : String
  deriving DecidableEq

structure EntryRow where
  entryId : String
  capsuleId : String
  revision : Int
  kind : String
  mediaType : String
  plaintextSha256 : String
  plaintextBytes : ℕ
  createdAt : String
  deriving DecidableEq

structure KeyRotationRow where
  rotationId : String
  capsuleId : String
  parentRevision : Int
  newRevision : Int
  actorId : String
  reason : String
  oldKeyId : String
  newKeyId : String
  occurredAt : String
  deriving DecidableEq

def ManifestRow.key (r : ManifestRow) : String × Int := (r.capsuleId, r.revision)
def EntryRow.key (r : EntryRow) : String × Int × String := (r.capsuleId, r.revision, r.entryId)

structure CapsuleDb where
  profiles : Table EvidenceEncryptionProfile EvidenceEncryptionProfile.profileId
  manifests : Table ManifestRow ManifestRow.key
  entries : Table EntryRow EntryRow.key
  rotations : Table KeyRotationRow KeyRotationRow.rotationId
  auditEvents : Table EvidenceAuditEvent EvidenceAuditEvent.auditId

def CapsuleDb.empty : CapsuleDb := ⟨.empty, .empty, .empty, .empty, .empty⟩

inductive CapsuleStoreError where
  | evidenceRevokeRequiredBeforeDelete (capsuleId : String)
  | evidenceCapsuleNotFound (capsuleId : String)
  | kmsUnavailable
  | constraint
  deriving DecidableEq

structure SaveRemoteCapsuleInput where
  profile : EvidenceEncryptionProfile
  manifest : RemoteEvidenceCapsuleManifest
  ciphertext : List UInt8
  entries : List EvidenceCapsuleEntry
  revision : Option Int
  parentRevision : Option Int
  deriving DecidableEq

structure RotateKeyInput where
  profile : EvidenceEncryptionProfile
  manifest : RemoteEvidenceCapsuleManifest
  ciphertext : List UInt8
  entries : List EvidenceCapsuleEntry
  parentRevision : Int
  newRevision : Int
  actorId : String
  reason : String
  oldKeyId : String
  newKeyId : String
  occurredAt : String
  rotationId : Option String
  deriving DecidableEq

/-! ## Statements -/

namespace CapsuleDb

/-- A profile is saved once. -/
def saveProfile (db : CapsuleDb) (profile : EvidenceEncryptionProfile) : CapsuleDb :=
  { db with profiles := (db.profiles.insert profile).getD db.profiles }

def manifestRow (manifest : RemoteEvidenceCapsuleManifest) (ciphertext : List UInt8)
    (revision : Int) (parentRevision : Option Int) (now : String) : ManifestRow where
  capsuleId := manifest.protectedHeader.capsuleId
  revision := revision
  parentRevision := parentRevision
  profileId := manifest.protectedHeader.profileId
  manifest := manifest
  ciphertext := some ciphertext
  revocationState := .active
  revokedAt := none
  revokedReason := none
  createdAt := now

def insertManifest (db : CapsuleDb) (row : ManifestRow) : Except CapsuleStoreError CapsuleDb :=
  if (db.profiles.get row.profileId).isSome then
    match db.manifests.insert row with
    | some manifests => .ok { db with manifests }
    | none => .error .constraint
  else .error .constraint

def entryRow (capsuleId : String) (revision : Int) (now : String) (entry : EvidenceCapsuleEntry) :
    EntryRow where
  entryId := entry.entryId
  capsuleId := capsuleId
  revision := revision
  kind := entry.kind
  mediaType := entry.mediaType
  plaintextSha256 := entry.plaintextSha256
  plaintextBytes := entry.plaintextBytes
  createdAt := now

def entryKinds : List String := ["trace", "semantic_graph", "screenshot", "log_summary"]

def insertEntry (row : EntryRow) (db : CapsuleDb) : Except CapsuleStoreError CapsuleDb :=
  if row.kind ∈ entryKinds then
    match db.entries.insert row with
    | some entries => .ok { db with entries }
    | none => .error .constraint
  else .error .constraint

def insertEntries (db : CapsuleDb) (capsuleId : String) (revision : Int) (now : String)
    (entries : List EvidenceCapsuleEntry) : Except CapsuleStoreError CapsuleDb :=
  entries.foldlM (fun db entry => insertEntry (entryRow capsuleId revision now entry) db) db

def insertRotation (db : CapsuleDb) (row : KeyRotationRow) : Except CapsuleStoreError CapsuleDb :=
  match db.rotations.insert row with
  | some rotations => .ok { db with rotations }
  | none => .error .constraint

/-- The transaction of a saved capsule. -/
def saveRemoteCapsule (db : CapsuleDb) (input : SaveRemoteCapsuleInput) (now : String) :
    Except CapsuleStoreError CapsuleDb := do
  let revision := input.revision.getD 1
  let row := manifestRow input.manifest input.ciphertext revision input.parentRevision now
  let db ← (db.saveProfile input.profile).insertManifest row
  db.insertEntries row.capsuleId revision now input.entries

/-- The transaction of a rotated key, which appends a revision to the capsule. -/
def rotateKey (db : CapsuleDb) (input : RotateKeyInput) (rotationId now : String) :
    Except CapsuleStoreError CapsuleDb := do
  let row := manifestRow input.manifest input.ciphertext input.newRevision
    (some input.parentRevision) now
  let db ← (db.saveProfile input.profile).insertManifest row
  let db ← db.insertEntries row.capsuleId input.newRevision now input.entries
  db.insertRotation {
    rotationId
    capsuleId := row.capsuleId
    parentRevision := input.parentRevision
    newRevision := input.newRevision
    actorId := input.actorId
    reason := input.reason
    oldKeyId := input.oldKeyId
    newKeyId := input.newKeyId
    occurredAt := input.occurredAt }

/-- The row with the greatest revision. -/
def latest (rows : List ManifestRow) : Option ManifestRow :=
  rows.foldl (fun best row => match best with
    | some b => if b.revision < row.revision then some row else some b
    | none => some row) none

def ofCapsule (capsuleId : String) (r : ManifestRow) : Bool := decide (r.capsuleId = capsuleId)

/-- The latest revision of a capsule. -/
def loadCapsule (db : CapsuleDb) (capsuleId : String) : Option ManifestRow :=
  latest (db.manifests.rows.filter (ofCapsule capsuleId))

/-- A revision of the capsule that is active, if there is one. -/
def activeRevision (db : CapsuleDb) (capsuleId : String) : Option Int :=
  (db.manifests.rows.find? fun r =>
    ofCapsule capsuleId r && decide (r.revocationState = .active)).map ManifestRow.revision

end CapsuleDb

def ManifestRow.revoke (revokedAt revokedReason : String) (r : ManifestRow) : ManifestRow :=
  { r with
    revocationState := .revoked
    revokedAt := some revokedAt
    revokedReason := some revokedReason }

def ManifestRow.clear (r : ManifestRow) : ManifestRow := { r with ciphertext := none }

@[simp] theorem ManifestRow.key_revoke (revokedAt revokedReason : String) (r : ManifestRow) :
    (r.revoke revokedAt revokedReason).key = r.key := rfl

@[simp] theorem ManifestRow.key_clear (r : ManifestRow) : r.clear.key = r.key := rfl

namespace CapsuleDb

def revokeManifests (db : CapsuleDb) (capsuleId now reason : String) : CapsuleDb :=
  let manifests := db.manifests.update (ofCapsule capsuleId) (ManifestRow.revoke now reason)
    (ManifestRow.key_revoke now reason)
  { db with manifests }

def clearCiphertext (db : CapsuleDb) (capsuleId : String) : CapsuleDb :=
  let manifests := db.manifests.update (ofCapsule capsuleId) ManifestRow.clear
    ManifestRow.key_clear
  { db with manifests }

def record (db : CapsuleDb) (event : EvidenceAuditEvent) : CapsuleDb :=
  { db with auditEvents := (db.auditEvents.insert event).getD db.auditEvents }

end CapsuleDb

/-! ## Steps -/

/-- What no code of the store decides, by the number of steps before. -/
structure CapsuleOracle where
  now : ℕ → String
  randomUUID : ℕ → String
  kmsFails : ℕ → Bool

inductive CapsuleOp where
  | now
  | randomUUID
  | saveRemoteCapsule (input : SaveRemoteCapsuleInput)
  | rotateKey (input : RotateKeyInput)
  | loadCapsule (capsuleId : String)
  | kmsRevoke (capsuleId reason : String)
  | revokeManifests (capsuleId now reason : String)
  | activeRevision (capsuleId : String)
  | clearCiphertext (capsuleId : String)
  | record (event : EvidenceAuditEvent)

def CapsuleOp.Reply : CapsuleOp → Type
  | .now => String
  | .randomUUID => String
  | .saveRemoteCapsule _ => Unit
  | .rotateKey _ => Unit
  | .loadCapsule _ => Option ManifestRow
  | .kmsRevoke _ _ => Unit
  | .revokeManifests _ _ _ => Unit
  | .activeRevision _ => Option Int
  | .clearCiphertext _ => Unit
  | .record _ => Unit

abbrev capsuleSignature : Signature := ⟨CapsuleOp, CapsuleOp.Reply⟩

abbrev CapsuleProgram (α : Type) := Program capsuleSignature CapsuleStoreError α

def perform (op : CapsuleOp) : CapsuleProgram op.Reply := Program.perform (S := capsuleSignature) op

structure CapsuleWorld where
  db : CapsuleDb
  draws : ℕ

def CapsuleWorld.initial : CapsuleWorld := ⟨.empty, 0⟩

/-- Commit a transaction, or roll it back. -/
def CapsuleWorld.transact (w : CapsuleWorld) (r : Except CapsuleStoreError CapsuleDb) :
    Except CapsuleStoreError Unit × CapsuleWorld :=
  match r with
  | .ok db => (.ok (), ⟨db, w.draws + 1⟩)
  | .error e => (.error e, { w with draws := w.draws + 1 })

variable (O : CapsuleOracle)

def handler : Handler capsuleSignature CapsuleStoreError CapsuleWorld
  | .now, w => (.ok (O.now w.draws), { w with draws := w.draws + 1 })
  | .randomUUID, w => (.ok (O.randomUUID w.draws), { w with draws := w.draws + 1 })
  | .saveRemoteCapsule input, w => w.transact (w.db.saveRemoteCapsule input (O.now w.draws))
  | .rotateKey input, w =>
    let rotationId := input.rotationId.getD (O.randomUUID w.draws)
    w.transact (w.db.rotateKey input rotationId (O.now w.draws))
  | .loadCapsule capsuleId, w => (.ok (w.db.loadCapsule capsuleId), w)
  | .kmsRevoke _ _, w =>
    (if O.kmsFails w.draws then .error .kmsUnavailable else .ok (), { w with draws := w.draws + 1 })
  | .revokeManifests capsuleId now reason, w =>
    (.ok (), { w with db := w.db.revokeManifests capsuleId now reason })
  | .activeRevision capsuleId, w => (.ok (w.db.activeRevision capsuleId), w)
  | .clearCiphertext capsuleId, w => (.ok (), { w with db := w.db.clearCiphertext capsuleId })
  | .record event, w => (.ok (), { w with db := w.db.record event })

/-! ## Operations -/

structure RevokeInput where
  capsuleId : String
  reason : String
  actor : EvidenceActor
  occurredAt : Option String
  deriving DecidableEq

structure DeleteInput where
  capsuleId : String
  actor : EvidenceActor
  occurredAt : Option String
  deriving DecidableEq

inductive CapsuleRequest where
  | saveRemoteCapsule (input : SaveRemoteCapsuleInput)
  | rotateKey (input : RotateKeyInput)
  | revokeCapsule (input : RevokeInput)
  | deleteCiphertext (input : DeleteInput)
  | expireCapsule (input : RevokeInput)
  deriving DecidableEq

namespace SqliteEvidenceCapsuleStore

def auditLifecycle (header : EvidenceCapsuleProtectedHeader) (actor : EvidenceActor)
    (outcome : AuditOutcome) (occurredAt : String) : CapsuleProgram Unit := do
  let auditId : String ← perform .randomUUID
  perform (.record {
    auditId
    actorType := actor.actorType
    actorId := actor.actorId
    tenantId := header.tenantId
    caseId := header.caseId
    capsuleId := header.capsuleId
    keyVersion := header.wrappingKeyId
    purpose := header.purpose
    operation := outcome.operation
    decision := outcome.decision
    reasonCode := outcome.reasonCode
    correlationId := actor.correlationId
    occurredAt })

def nowOr : Option String → CapsuleProgram String
  | some occurredAt => pure occurredAt
  | none => perform .now

/-- Revoke at the key management first, and mark the revisions only when that succeeded. -/
def revokeCapsule (input : RevokeInput) : CapsuleProgram Unit := do
  let head : Option ManifestRow ← perform (.loadCapsule input.capsuleId)
  match head with
  | none => .throw (.evidenceCapsuleNotFound input.capsuleId)
  | some head =>
    let header := head.manifest.protectedHeader
    let now ← nowOr input.occurredAt
    (perform (.kmsRevoke input.capsuleId input.reason)).tryCatch fun cause => do
      auditLifecycle header input.actor ⟨"revoke", "failed", "EvidenceLimited"⟩ now
      .throw cause
    let _ : Unit ← perform (.revokeManifests input.capsuleId now input.reason)
    auditLifecycle header input.actor ⟨"revoke", "allowed", "ok"⟩ now

/-- Refused while a revision is active. -/
def deleteCiphertext (input : DeleteInput) : CapsuleProgram Unit := do
  let head : Option ManifestRow ← perform (.loadCapsule input.capsuleId)
  match head with
  | none => .throw (.evidenceCapsuleNotFound input.capsuleId)
  | some head =>
    let active : Option Int ← perform (.activeRevision input.capsuleId)
    if active.isSome then .throw (.evidenceRevokeRequiredBeforeDelete input.capsuleId)
    else
      let now ← nowOr input.occurredAt
      let _ : Unit ← perform (.clearCiphertext input.capsuleId)
      auditLifecycle head.manifest.protectedHeader input.actor ⟨"delete", "allowed", "ok"⟩ now

def expireCapsule (input : RevokeInput) : CapsuleProgram Unit := do
  revokeCapsule input
  deleteCiphertext ⟨input.capsuleId, input.actor, input.occurredAt⟩

end SqliteEvidenceCapsuleStore

def CapsuleRequest.body : CapsuleRequest → CapsuleProgram Unit
  | .saveRemoteCapsule input => perform (.saveRemoteCapsule input)
  | .rotateKey input => perform (.rotateKey input)
  | .revokeCapsule input => SqliteEvidenceCapsuleStore.revokeCapsule input
  | .deleteCiphertext input => SqliteEvidenceCapsuleStore.deleteCiphertext input
  | .expireCapsule input => SqliteEvidenceCapsuleStore.expireCapsule input

abbrev CapsulePool := Pool capsuleSignature CapsuleStoreError Unit CapsuleWorld CapsuleRequest

/-- The operations and the store after a sequence of turns, from an empty store. -/
def CapsulePool.after (turns : List (Turn CapsuleRequest)) : CapsulePool :=
  Pool.runs (handler O) CapsuleRequest.body ⟨.initial, []⟩ turns

end Qualigence.Evidence.CapsuleStore
