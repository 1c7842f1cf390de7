import Mathlib.Data.List.MinMax
import Qualigence.Evidence.CapsuleStore

/-! # Deleting evidence

The server deletes evidence in phases, and the lifecycle state of the capsule says which phase
was reached: the key management is revoked, then the ciphertexts are removed. Every step is a
transaction of its own, or a call to the key management or to the artifact store, and every step
can fail before or after it took effect.
-/

namespace Qualigence.Evidence.Lifecycle

open Foundation
open CapsuleStore (RevocationState)

inductive EvidenceLifecycleState where
  | active
  | revoking
  | revoked
  | deleting
  | deleted
  deriving DecidableEq

/-- A row of the server's `evidence_capsule_manifests`. -/
structure ManifestRow where
  tenantId : String
  capsuleId : String
  revision : Int
  caseId : String
  purpose : String
  policyId : String
  region : String
  wrappingKeyId : String
  ciphertext : Option (List UInt8)
  revocationState : RevocationState
  revokedAt : Option String
  revokedReason : Option String
  lifecycleState : EvidenceLifecycleState
  lifecycleUpdatedAt : Option String
  deletedAt : Option String
  lastLifecycleError : Option String
  expiresAt : String
  deriving DecidableEq

def ManifestRow.key (r : ManifestRow) : String × String × Int :=
  (r.tenantId, r.capsuleId, r.revision)

def eventKey (e : EvidenceAuditEvent) : String × String := (e.tenantId, e.auditId)

structure EvidenceLifecycleRecord where
  capsuleId : String
  tenantId : String
  caseId : String
  region : String
  purpose : String
  policyId : String
  keyVersion : String
  state : EvidenceLifecycleState
  ciphertextPresent : Bool
  expiresAt : String
  deriving DecidableEq

structure EvidencePlaintextAccessCheck where
  tenantId : String
  caseId : String
  region : String
  purpose : String
  policyId : String
  keyVersion : String
  capsuleId : String
  occurredAt : String
  deriving DecidableEq

inductive EvidenceLifecycleError where
  | evidenceCapsuleNotFound (capsuleId : String)
  | evidenceLifecycleConflict (capsuleId : String)
  | evidenceLifecycleTerminal (capsuleId : String) (state : EvidenceLifecycleState)
  | evidenceAuditUnavailable (capsuleId : String)
  | evidenceRevocationFailed (capsuleId : String)
  | evidenceDeletionFailed (capsuleId : String)
  | mustBeRevoked (capsuleId : String)
  | auditTenantMismatch
  | unavailable
  deriving DecidableEq

/-- A revocation that the key management has carried out. -/
inductive KmsRevocation where
  | capsule (capsuleId reason : String)
  | forScope (input : EvidencePlaintextAccessCheck) (reason : String)
  deriving DecidableEq

/-! ## Store -/

structure LifecycleWorld where
  manifests : Table ManifestRow ManifestRow.key
  auditEvents : Table EvidenceAuditEvent eventKey
  revocations : List KmsRevocation
  /-- The artifacts that were removed, with their tenants. -/
  deletedArtifacts : List (String × String)
  steps : ℕ

def ofCapsule (tenantId capsuleId : String) (r : ManifestRow) : Bool :=
  decide (r.tenantId = tenantId ∧ r.capsuleId = capsuleId)

structure TransitionInput where
  capsuleId : String
  source : List EvidenceLifecycleState
  target : EvidenceLifecycleState
  occurredAt : String
  reason : String
  deriving DecidableEq

/-- The columns that a transition writes. -/
def ManifestRow.lifecycleUpdateValues (target : EvidenceLifecycleState)
    (occurredAt reason : String) (r : ManifestRow) : ManifestRow :=
  let base := { r with
    lifecycleState := target
    lifecycleUpdatedAt := some occurredAt
    lastLifecycleError := some reason }
  if target = .revoked ∨ target = .deleting ∨ target = .deleted then
    { base with
      revocationState := .revoked
      revokedAt := some occurredAt
      revokedReason := some reason
      deletedAt := if target = .deleted then some occurredAt else base.deletedAt }
  else base

def ManifestRow.clear (r : ManifestRow) : ManifestRow := { r with ciphertext := none }

theorem ManifestRow.key_lifecycleUpdateValues (target : EvidenceLifecycleState)
    (occurredAt reason : String) (r : ManifestRow) :
    (r.lifecycleUpdateValues target occurredAt reason).key = r.key := by
  unfold lifecycleUpdateValues
  split <;> rfl

theorem ManifestRow.key_clear (r : ManifestRow) : r.clear.key = r.key := rfl

namespace LifecycleWorld

/-- The computable order of revisions. -/
local instance : Preorder ℤ := Int.instLinearOrder.toPreorder

/-- The row of the capsule with the greatest revision. -/
def latest (w : LifecycleWorld) (tenantId capsuleId : String) : Option ManifestRow :=
  (w.manifests.rows.filter (ofCapsule tenantId capsuleId)).argmax ManifestRow.revision

def load (w : LifecycleWorld) (tenantId capsuleId : String) : Option EvidenceLifecycleRecord :=
  (w.latest tenantId capsuleId).map fun row => {
    capsuleId := row.capsuleId
    tenantId := row.tenantId
    caseId := row.caseId
    region := row.region
    purpose := row.purpose
    policyId := row.policyId
    keyVersion := row.wrappingKeyId
    state := row.lifecycleState
    ciphertextPresent := row.ciphertext.isSome
    expiresAt := row.expiresAt }

/-- The rows that a transition updates. -/
def inState (tenantId : String) (input : TransitionInput) (r : ManifestRow) : Bool :=
  ofCapsule tenantId input.capsuleId r && decide (r.lifecycleState ∈ input.source)

def updateLifecycle (w : LifecycleWorld) (tenantId : String) (input : TransitionInput) :
    LifecycleWorld :=
  let write := ManifestRow.lifecycleUpdateValues input.target input.occurredAt input.reason
  let manifests := w.manifests.update (inState tenantId input) write
    (ManifestRow.key_lifecycleUpdateValues _ _ _)
  { w with manifests }

/-- A revision of the capsule that is not revoked yet, if there is one. -/
def unrevokedRevision (w : LifecycleWorld) (tenantId capsuleId : String) : Option Int :=
  (w.manifests.rows.find? fun r => ofCapsule tenantId capsuleId r &&
    decide (r.lifecycleState ∈ [.active, .revoking])).map ManifestRow.revision

def isDeleting (tenantId capsuleId : String) (r : ManifestRow) : Bool :=
  ofCapsule tenantId capsuleId r && decide (r.lifecycleState = .deleting)

def clearCiphertext (w : LifecycleWorld) (tenantId capsuleId : String) : LifecycleWorld :=
  let manifests := w.manifests.update (isDeleting tenantId capsuleId) ManifestRow.clear
    ManifestRow.key_clear
  { w with manifests }

/-- An event is stored once. -/
def record (w : LifecycleWorld) (event : EvidenceAuditEvent) : LifecycleWorld :=
  { w with auditEvents := (w.auditEvents.insert event).getD w.auditEvents }

end LifecycleWorld

/-! ## Steps -/

/-- Whether a step fails, and whether it took effect then. -/
inductive StepFault where
  | none
  | before
  | after
  deriving DecidableEq

/-- What no code of the server decides, by the number of steps before. `kmsScoped` tells
whether the key management can revoke for a scope. -/
structure LifecycleOracle where
  randomUUID : ℕ → String
  fault : ℕ → StepFault
  kmsScoped : Bool

inductive LifecycleOp where
  | load (tenantId capsuleId : String)
  | updateLifecycle (tenantId : String) (input : TransitionInput)
  | latestState (tenantId capsuleId : String)
  | kmsRevoke (capsuleId reason : String)
  | kmsRevokeForScope (input : EvidencePlaintextAccessCheck) (reason : String)
  | deleteArtifact (tenantId artifactId : String)
  | unrevokedRevision (tenantId capsuleId : String)
  | clearCiphertext (tenantId capsuleId : String)
  | record (tenantId : String) (record : EvidenceLifecycleRecord) (actor : EvidenceActor)
      (outcome : AuditOutcome) (occurredAt : String)

def LifecycleOp.Reply : LifecycleOp → Type
  | .load _ _ => Option EvidenceLifecycleRecord
  | .updateLifecycle _ _ => ℕ
  | .latestState _ _ => Option EvidenceLifecycleState
  | .unrevokedRevision _ _ => Option Int
  | .kmsRevoke _ _ => Unit
  | .kmsRevokeForScope _ _ => Unit
  | .deleteArtifact _ _ => Unit
  | .clearCiphertext _ _ => Unit
  | .record _ _ _ _ _ => Unit

abbrev lifecycleSignature : Signature := ⟨LifecycleOp, LifecycleOp.Reply⟩

abbrev LifecycleProgram (α : Type) := Program lifecycleSignature EvidenceLifecycleError α

def perform (op : LifecycleOp) : LifecycleProgram op.Reply :=
  Program.perform (S := lifecycleSignature) op

def auditEvent (auditId : String) (record : EvidenceLifecycleRecord) (actor : EvidenceActor)
    (outcome : AuditOutcome) (occurredAt : String) : EvidenceAuditEvent where
  auditId := auditId
  actorType := actor.actorType
  actorId := actor.actorId
  tenantId := record.tenantId
  caseId := record.caseId
  capsuleId := record.capsuleId
  keyVersion := record.keyVersion
  purpose := record.purpose
  operation := outcome.operation
  decision := outcome.decision
  reasonCode := outcome.reasonCode
  correlationId := actor.correlationId
  occurredAt := occurredAt

variable (O : LifecycleOracle)

/-- The effect of a step that does not fail. -/
def effect : Handler lifecycleSignature EvidenceLifecycleError LifecycleWorld
  | .load tenantId capsuleId, w => (.ok (w.load tenantId capsuleId), w)
  | .updateLifecycle tenantId input, w =>
    let updated : ℕ := w.manifests.count (LifecycleWorld.inState tenantId input)
    (.ok updated, w.updateLifecycle tenantId input)
  | .latestState tenantId capsuleId, w =>
    (.ok ((w.latest tenantId capsuleId).map ManifestRow.lifecycleState), w)
  | .kmsRevoke capsuleId reason, w =>
    (.ok (), { w with revocations := w.revocations ++ [.capsule capsuleId reason] })
  | .kmsRevokeForScope input reason, w =>
    (.ok (), { w with revocations := w.revocations ++ [.forScope input reason] })
  | .deleteArtifact tenantId artifactId, w =>
    (.ok (), { w with deletedArtifacts := w.deletedArtifacts ++ [(tenantId, artifactId)] })
  | .unrevokedRevision tenantId capsuleId, w => (.ok (w.unrevokedRevision tenantId capsuleId), w)
  | .clearCiphertext tenantId capsuleId, w => (.ok (), w.clearCiphertext tenantId capsuleId)
  | .record tenantId record actor outcome occurredAt, w =>
    let event := auditEvent (O.randomUUID w.steps) record actor outcome occurredAt
    if event.tenantId = tenantId then (.ok (), w.record event) else (.error .auditTenantMismatch, w)

/-- A step that may fail. -/
def handler : Handler lifecycleSignature EvidenceLifecycleError LifecycleWorld := fun op w =>
  match O.fault w.steps with
  | .none => ((effect O op w).1, { (effect O op w).2 with steps := w.steps + 1 })
  | .before => (.error .unavailable, { w with steps := w.steps + 1 })
  | .after => (.error .unavailable, { (effect O op w).2 with steps := w.steps + 1 })

/-! ## Operations -/

structure DeleteEvidenceInput where
  tenantId : String
  capsuleId : String
  reason : String
  actor : EvidenceActor
  occurredAt : String
  deriving DecidableEq

namespace PostgresEvidenceLifecycleStore

inductive TransitionResult where
  | advanced
  | alreadyCurrent
  | conflict
  | notFound
  deriving DecidableEq

def transition (tenantId : String) (input : TransitionInput) :
    LifecycleProgram TransitionResult := do
  let updated : ℕ ← perform (.updateLifecycle tenantId input)
  if updated > 0 then pure .advanced
  else
    let current : Option EvidenceLifecycleState ← perform (.latestState tenantId input.capsuleId)
    match current with
    | none => pure .notFound
    | some state => if state = input.target then pure .alreadyCurrent else pure .conflict

/-- Remove the artifact, then the ciphertexts of the revisions that are being deleted. -/
def deleteCiphertext (tenantId capsuleId : String) : LifecycleProgram Unit := do
  let _ : Unit ← perform (.deleteArtifact tenantId capsuleId)
  let unrevoked : Option Int ← perform (.unrevokedRevision tenantId capsuleId)
  if unrevoked.isSome then .throw (.mustBeRevoked capsuleId)
  else perform (.clearCiphertext tenantId capsuleId)

end PostgresEvidenceLifecycleStore

namespace EvidenceLifecycleService

def requireRecord (tenantId capsuleId : String) : LifecycleProgram EvidenceLifecycleRecord := do
  let record : Option EvidenceLifecycleRecord ← perform (.load tenantId capsuleId)
  match record with
  | none => .throw (.evidenceCapsuleNotFound capsuleId)
  | some record => pure record

def advance (input : DeleteEvidenceInput) (source : List EvidenceLifecycleState)
    (target : EvidenceLifecycleState) : LifecycleProgram Unit := do
  let result ← PostgresEvidenceLifecycleStore.transition input.tenantId {
    capsuleId := input.capsuleId
    source
    target
    occurredAt := input.occurredAt
    reason := input.reason }
  match result with
  | .advanced => pure ()
  | .alreadyCurrent => pure ()
  | .notFound => .throw (.evidenceCapsuleNotFound input.capsuleId)
  | .conflict => .throw (.evidenceLifecycleConflict input.capsuleId)

def audit (input : DeleteEvidenceInput) (record : EvidenceLifecycleRecord)
    (outcome : AuditOutcome) : LifecycleProgram Unit :=
  let stored : LifecycleProgram Unit :=
    perform (.record input.tenantId record input.actor outcome input.occurredAt)
  stored.tryCatch fun _ => .throw (.evidenceAuditUnavailable record.capsuleId)

def accessCheck (record : EvidenceLifecycleRecord) (occurredAt : String) :
    EvidencePlaintextAccessCheck where
  tenantId := record.tenantId
  caseId := record.caseId
  region := record.region
  purpose := record.purpose
  policyId := record.policyId
  keyVersion := record.keyVersion
  capsuleId := record.capsuleId
  occurredAt := occurredAt

/-- Revoke for the scope where the key management can, else the capsule alone. -/
def revokeAtKms (input : DeleteEvidenceInput) (current : EvidenceLifecycleRecord) :
    LifecycleProgram Unit :=
  if O.kmsScoped then
    perform (.kmsRevokeForScope (accessCheck current input.occurredAt) input.reason)
  else perform (.kmsRevoke input.capsuleId input.reason)

/-- Revoke at the key management, and audit the outcome. -/
def revokeKey (input : DeleteEvidenceInput) (current : EvidenceLifecycleRecord) :
    LifecycleProgram Unit := do
  (revokeAtKms O input current).tryCatch fun _ => do
    audit input current ⟨"revoke", "failed", "EvidenceRevocationFailed"⟩
    .throw (.evidenceRevocationFailed input.capsuleId)
  audit input current ⟨"revoke", "allowed", "ok"⟩

/-- Remove the ciphertext, and audit the outcome. -/
def removeCiphertext (input : DeleteEvidenceInput) (current : EvidenceLifecycleRecord) :
    LifecycleProgram Unit := do
  (PostgresEvidenceLifecycleStore.deleteCiphertext input.tenantId input.capsuleId).tryCatch
    fun _ => do
      audit input current ⟨"delete", "failed", "EvidenceDeletionFailed"⟩
      advance input [.deleting] .revoked
      .throw (.evidenceDeletionFailed input.capsuleId)
  audit input current ⟨"delete", "allowed", "ok"⟩

/-- Each phase starts from the state that was loaded last. -/
def phaseActive (input : DeleteEvidenceInput) (current : EvidenceLifecycleRecord) :
    LifecycleProgram EvidenceLifecycleRecord := do
  if current.state = .active then
    advance input [.active] .revoking
    requireRecord input.tenantId input.capsuleId
  else pure current

def phaseRevoking (input : DeleteEvidenceInput) (current : EvidenceLifecycleRecord) :
    LifecycleProgram EvidenceLifecycleRecord := do
  if current.state = .revoking then
    revokeKey O input current
    advance input [.revoking] .revoked
    requireRecord input.tenantId input.capsuleId
  else pure current

def phaseRevoked (input : DeleteEvidenceInput) (current : EvidenceLifecycleRecord) :
    LifecycleProgram EvidenceLifecycleRecord := do
  if current.state = .revoked then
    advance input [.revoked] .deleting
    requireRecord input.tenantId input.capsuleId
  else pure current

def phaseDeleting (input : DeleteEvidenceInput) (current : EvidenceLifecycleRecord) :
    LifecycleProgram EvidenceLifecycleState := do
  if current.state = .deleting then
    removeCiphertext input current
    advance input [.deleting] .deleted
    pure .deleted
  else .throw (.evidenceLifecycleTerminal input.capsuleId current.state)

def deleteEvidence (input : DeleteEvidenceInput) : LifecycleProgram EvidenceLifecycleState := do
  let current ← requireRecord input.tenantId input.capsuleId
  if current.state = .deleted then pure .deleted
  else
    let current ← phaseActive input current
    let current ← phaseRevoking O input current
    let current ← phaseRevoked input current
    phaseDeleting input current

end EvidenceLifecycleService

/-! ## Runs -/

/-- A capsule that is stored with its ciphertext. -/
structure StoredCapsule where
  tenantId : String
  capsuleId : String
  revision : Int
  caseId : String
  purpose : String
  policyId : String
  region : String
  wrappingKeyId : String
  ciphertext : List UInt8
  expiresAt : String
  deriving DecidableEq

/-- The row of a capsule that no lifecycle step has touched. -/
def StoredCapsule.row (c : StoredCapsule) : ManifestRow where
  tenantId := c.tenantId
  capsuleId := c.capsuleId
  revision := c.revision
  caseId := c.caseId
  purpose := c.purpose
  policyId := c.policyId
  region := c.region
  wrappingKeyId := c.wrappingKeyId
  ciphertext := some c.ciphertext
  revocationState := .active
  revokedAt := none
  revokedReason := none
  lifecycleState := .active
  lifecycleUpdatedAt := none
  deletedAt := none
  lastLifecycleError := none
  expiresAt := c.expiresAt

/-- The store with the given capsules. -/
def LifecycleWorld.storing (capsules : List StoredCapsule) : LifecycleWorld where
  manifests := capsules.foldl (fun t c => (t.insert c.row).getD t) .empty
  auditEvents := .empty
  revocations := []
  deletedArtifacts := []
  steps := 0

abbrev LifecyclePool :=
  Pool lifecycleSignature EvidenceLifecycleError EvidenceLifecycleState LifecycleWorld
    DeleteEvidenceInput

/-- The deletions and the store after a sequence of turns. -/
def LifecyclePool.after (capsules : List StoredCapsule)
    (turns : List (Turn DeleteEvidenceInput)) : LifecyclePool :=
  Pool.runs (handler O) (EvidenceLifecycleService.deleteEvidence O) ⟨.storing capsules, []⟩ turns

end Qualigence.Evidence.Lifecycle
