import Mathlib.Data.Nat.Notation

/-! # Evidence capsules

A remote capsule is a manifest with a ciphertext. The protected header of the manifest is
copied from an encryption profile that the key management issued for a scope. The texts of
instants are ISO-8601, so that their order is the order of the instants.
-/

namespace Qualigence.Evidence

/-- The scope of a key: a tenant, a case, a region and a purpose. -/
structure EvidenceKeyScope where
  tenantId : String
  caseId : String
  region : String
  purpose : String
  deriving DecidableEq

structure EvidenceEncryptionProfile where
  profileId : String
  tenantId : String
  caseId : String
  recipient : String
  region : String
  purpose : String
  policyId : String
  wrappingKeyId : String
  wrappingPublicKeyPem : String
  contentEncryptionAlgorithm : String
  keyWrappingAlgorithm : String
  aadSchemaVersion : String
  allowedEntryKinds : List String
  maximumEntryBytes : ℕ
  maximumPlaintextBytes : ℕ
  maximumCiphertextBytes : ℕ
  expiresAt : String
  deriving DecidableEq

structure EvidenceCapsuleEntry where
  entryId : String
  kind : String
  mediaType : String
  plaintextSha256 : String
  plaintextBytes : ℕ
  dataBase64 : String
  deriving DecidableEq

structure EvidenceCapsulePayload where
  schemaVersion : String
  runId : String
  entries : List EvidenceCapsuleEntry
  deriving DecidableEq

structure EvidenceCapsuleProtectedHeader where
  schemaVersion : String
  capsuleId : String
  profileId : String
  payloadSchemaVersion : String
  tenantId : String
  caseId : String
  recipient : String
  region : String
  purpose : String
  policyId : String
  contentEncryptionAlgorithm : String
  keyWrappingAlgorithm : String
  wrappingKeyId : String
  plaintextSha256 : String
  plaintextBytes : ℕ
  createdAt : String
  expiresAt : String
  deriving DecidableEq

structure RemoteEvidenceCapsuleManifest where
  protectedHeader : EvidenceCapsuleProtectedHeader
  ciphertextSha256 : String
  ciphertextBytes : ℕ
  wrappedDekBase64 : String
  nonceBase64 : String
  authTagBase64 : String
  deriving DecidableEq

/-- Who performs an operation on a capsule, as audit events tell it. -/
structure EvidenceActor where
  actorType : String
  actorId : String
  correlationId : String
  deriving DecidableEq

structure EvidenceAuditEvent where
  auditId : String
  actorType : String
  actorId : String
  tenantId : String
  caseId : String
  capsuleId : String
  keyVersion : String
  purpose : String
  operation : String
  decision : String
  reasonCode : String
  correlationId : String
  occurredAt : String
  deriving DecidableEq

/-- What was done in an audited operation, and with which outcome. -/
structure AuditOutcome where
  operation : String
  decision : String
  reasonCode : String
  deriving DecidableEq

end Qualigence.Evidence
