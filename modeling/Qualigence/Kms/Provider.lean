import Qualigence.Kms.KeyStore
import Qualigence.Protocol.Instant

/-! # The self-hosted key management

A scope has versions of a wrapping key. The key management issues encryption profiles for the
primary version of a scope, wraps data keys under a profile, and unwraps them for a request of
the scope that the version belongs to. A rotation appends a version, and a revocation forbids to
unwrap. The identifier of a scope joins its four parts.
-/

namespace Qualigence.Kms

open Evidence Protocol

/-- A fresh RSA key pair, with its private key sealed under the root key. -/
structure KeyPair where
  keyId : String
  publicKeyPem : String
  sealedPrivateKey : SealedKey
  deriving DecidableEq

/-- What the key management uses of its environment, by the number of operations before: fresh
key pairs, the clock and RSA-OAEP under the root key; and the options it is made with. -/
structure KmsEnvironment where
  generateKeyPair : ℕ → KeyPair
  nowMs : ℕ → Int
  publicEncrypt : String → ℕ → List UInt8 → String
  privateDecrypt : SealedKey → String → Option (List UInt8)
  recipient : String
  policyId : String
  allowedEntryKinds : List String
  maximumEntryBytes : ℕ
  maximumPlaintextBytes : ℕ
  maximumCiphertextBytes : ℕ
  ttlMs : Int

inductive SelfHostedKmsError where
  | kmsUnavailable
  | kmsScopeDenied (operation reasonCode : String)
  | kmsKeyRevoked (reasonCode : String)
  | kmsIntegrityViolation
  | store (error : KeyStoreError)
  deriving DecidableEq

structure KmsState (σ : Type) where
  store : σ
  available : Bool
  draws : ℕ

/-! ## Scopes -/

/-- `[tenantId, caseId, region, purpose].join("|")`. -/
def scopeId (scope : EvidenceKeyScope) : String :=
  String.ofList (['|'].intercalate
    [scope.tenantId.toList, scope.caseId.toList, scope.region.toList, scope.purpose.toList])

/-- The first four parts of an identifier. -/
def scopeFromId (id : String) : EvidenceKeyScope :=
  let parts := id.toList.splitOn '|'
  { tenantId := (parts[0]?.map String.ofList).getD ""
    caseId := (parts[1]?.map String.ofList).getD ""
    region := (parts[2]?.map String.ofList).getD ""
    purpose := (parts[3]?.map String.ofList).getD "investigation" }

def profileScope (profile : EvidenceEncryptionProfile) :
    EvidenceKeyScope :=
  ⟨profile.tenantId, profile.caseId, profile.region, profile.purpose⟩

def profileMatches (expected actual : EvidenceEncryptionProfile) : Bool :=
  decide (expected.tenantId = actual.tenantId)
    && decide (expected.caseId = actual.caseId)
    && decide (expected.region = actual.region)
    && decide (expected.purpose = actual.purpose)
    && decide (expected.recipient = actual.recipient)
    && decide (expected.policyId = actual.policyId)
    && decide (expected.wrappingKeyId = actual.wrappingKeyId)
    && decide (expected.wrappingPublicKeyPem = actual.wrappingPublicKeyPem)
    && decide (expected.contentEncryptionAlgorithm = actual.contentEncryptionAlgorithm)
    && decide (expected.keyWrappingAlgorithm = actual.keyWrappingAlgorithm)

namespace SelfHostedKms

variable {σ : Type} (K : SelfHostedKmsKeyStore σ) (E : KmsEnvironment)

/-- The outcome of an operation with the state after it. -/
abbrev Outcome (σ α : Type) := Except SelfHostedKmsError α × KmsState σ

def start : KmsState σ := ⟨K.empty, true, 0⟩

def buildProfile (n : ℕ) (scope : EvidenceKeyScope) (version : StoredKmsKeyVersion) :
    EvidenceEncryptionProfile where
  profileId := "profile-" ++ version.keyId
  tenantId := scope.tenantId
  caseId := scope.caseId
  recipient := E.recipient
  region := scope.region
  purpose := scope.purpose
  policyId := E.policyId
  wrappingKeyId := version.keyId
  wrappingPublicKeyPem := version.publicKeyPem
  contentEncryptionAlgorithm := "A256GCM"
  keyWrappingAlgorithm := "RSA-OAEP-256"
  aadSchemaVersion := "evidence-capsule-aad/v1"
  allowedEntryKinds := E.allowedEntryKinds
  maximumEntryBytes := E.maximumEntryBytes
  maximumPlaintextBytes := E.maximumPlaintextBytes
  maximumCiphertextBytes := E.maximumCiphertextBytes
  expiresAt := toISOString (E.nowMs n + E.ttlMs)

def keyVersion (n : ℕ) (scopeId : String) (revision : ℕ) : StoredKmsKeyVersion where
  scopeId := scopeId
  keyId := (E.generateKeyPair n).keyId
  revision := revision
  publicKeyPem := (E.generateKeyPair n).publicKeyPem
  sealedPrivateKey := (E.generateKeyPair n).sealedPrivateKey
  status := .active
  createdAt := toISOString (E.nowMs n)
  isPrimary := true

/-- Append a version and make it the primary. -/
def createVersion (s : KmsState σ) (scope : EvidenceKeyScope) : Outcome σ StoredKmsKeyVersion :=
  let id := scopeId scope
  match K.listVersions s.store id with
  | .error error => (.error (.store error), s)
  | .ok versions =>
    let version := keyVersion E s.draws id (versions.length + 1)
    let s := { s with draws := s.draws + 1 }
    match K.putVersion s.store version with
    | .error error => (.error (.store error), s)
    | .ok store =>
      match K.setPrimary store id version.keyId with
      | .error error => (.error (.store error), { s with store })
      | .ok primary => (.ok version, { s with store := primary })

def ensurePrimaryVersion (s : KmsState σ) (scope : EvidenceKeyScope) :
    Outcome σ StoredKmsKeyVersion :=
  match K.primaryVersion s.store (scopeId scope) with
  | .error error => (.error (.store error), s)
  | .ok (some existing) => (.ok existing, s)
  | .ok none => createVersion K E s scope

def profileOf (n : ℕ) (scope : EvidenceKeyScope) (r : Outcome σ StoredKmsKeyVersion) :
    Outcome σ EvidenceEncryptionProfile :=
  match r with
  | (.ok version, s) => (.ok (buildProfile E n scope version), s)
  | (.error error, s) => (.error error, s)

def encryptionProfile (s : KmsState σ) (scope : EvidenceKeyScope) :
    Outcome σ EvidenceEncryptionProfile :=
  if !s.available then (.error .kmsUnavailable, s)
  else profileOf E s.draws scope (ensurePrimaryVersion K E s scope)

def rotate (s : KmsState σ) (scope : EvidenceKeyScope) : Outcome σ EvidenceEncryptionProfile :=
  if !s.available then (.error .kmsUnavailable, s)
  else profileOf E s.draws scope (createVersion K E s scope)

def wrapDek (s : KmsState σ) (profile : EvidenceEncryptionProfile) (dek : List UInt8) :
    Outcome σ String :=
  if !s.available then (.error .kmsUnavailable, s)
  else match K.getByKeyId s.store profile.wrappingKeyId (scopeId (profileScope profile)) with
    | .error error => (.error (.store error), s)
    | .ok none => (.error (.kmsScopeDenied "wrap" "unknown_key"), s)
    | .ok (some version) =>
      if version.status ≠ .active then (.error (.kmsKeyRevoked "key_revoked"), s)
      else
        let expected := buildProfile E s.draws (scopeFromId version.scopeId) version
        if !profileMatches expected profile then
          (.error (.kmsScopeDenied "wrap" "profile_tampered"), s)
        else
          (.ok (E.publicEncrypt version.publicKeyPem s.draws dek), { s with draws := s.draws + 1 })

/-- Unwrap the data key of a manifest for the scope of an authenticated request. -/
def unwrapDek (s : KmsState σ) (manifest : RemoteEvidenceCapsuleManifest)
    (scope : EvidenceKeyScope) : Except SelfHostedKmsError (List UInt8) :=
  let authenticatedScopeId := scopeId scope
  let header := manifest.protectedHeader
  if !s.available then .error .kmsUnavailable
  else match K.isCapsuleRevoked s.store authenticatedScopeId header.capsuleId with
    | .error error => .error (.store error)
    | .ok true => .error (.kmsKeyRevoked "capsule_revoked")
    | .ok false =>
      if header.policyId ≠ E.policyId then .error (.kmsScopeDenied "unwrap" "policy_mismatch")
      else match K.getByKeyId s.store header.wrappingKeyId authenticatedScopeId with
        | .error error => .error (.store error)
        | .ok none => .error (.kmsScopeDenied "unwrap" "scope_mismatch")
        | .ok (some version) =>
          if version.scopeId ≠ authenticatedScopeId then
            .error (.kmsScopeDenied "unwrap" "scope_mismatch")
          else if version.status ≠ .active then .error (.kmsKeyRevoked "key_revoked")
          else match E.privateDecrypt version.sealedPrivateKey manifest.wrappedDekBase64 with
            | none => .error .kmsIntegrityViolation
            | some dek => .ok dek

/-- A store operation with the state after it. -/
def update (s : KmsState σ) (r : Except KeyStoreError σ) : Outcome σ Unit :=
  match r with
  | .error error => (.error (.store error), s)
  | .ok store => (.ok (), { s with store })

/-- Revoke a capsule in every scope. -/
def revoke (s : KmsState σ) (capsuleId reason : String) : Outcome σ Unit :=
  if !s.available then (.error .kmsUnavailable, s)
  else
    let occurredAt := toISOString (E.nowMs s.draws)
    update s (K.markCapsuleRevoked s.store ⟨none, capsuleId, reason, occurredAt⟩)

def revokeForScope (s : KmsState σ) (scope : EvidenceKeyScope) (capsuleId reason : String) :
    Outcome σ Unit :=
  if !s.available then (.error .kmsUnavailable, s)
  else
    let occurredAt := toISOString (E.nowMs s.draws)
    update s (K.markCapsuleRevoked s.store ⟨some (scopeId scope), capsuleId, reason, occurredAt⟩)

/-- Revoke every version of a scope. -/
def revokeScope (s : KmsState σ) (scope : EvidenceKeyScope) : Outcome σ Unit :=
  if !s.available then (.error .kmsUnavailable, s)
  else update s (K.markScopeRevoked s.store (scopeId scope))

end SelfHostedKms

/-! ## Runs -/

inductive KmsOp where
  | setAvailable (available : Bool)
  | encryptionProfile (scope : EvidenceKeyScope)
  | rotate (scope : EvidenceKeyScope)
  | wrapDek (profile : EvidenceEncryptionProfile) (dek : List UInt8)
  | revoke (capsuleId reason : String)
  | revokeForScope (scope : EvidenceKeyScope) (capsuleId reason : String)
  | revokeScope (scope : EvidenceKeyScope)
  deriving DecidableEq

namespace KmsState

variable {σ : Type} (K : SelfHostedKmsKeyStore σ) (E : KmsEnvironment)

/-- The state after an operation. -/
def step (s : KmsState σ) : KmsOp → KmsState σ
  | .setAvailable available => { s with available }
  | .encryptionProfile scope => (SelfHostedKms.encryptionProfile K E s scope).2
  | .rotate scope => (SelfHostedKms.rotate K E s scope).2
  | .wrapDek profile dek => (SelfHostedKms.wrapDek K E s profile dek).2
  | .revoke capsuleId reason => (SelfHostedKms.revoke K E s capsuleId reason).2
  | .revokeForScope scope capsuleId reason =>
    (SelfHostedKms.revokeForScope K E s scope capsuleId reason).2
  | .revokeScope scope => (SelfHostedKms.revokeScope K s scope).2

def runs (s : KmsState σ) (ops : List KmsOp) : KmsState σ := ops.foldl (step K E) s

/-- The state after a sequence of operations, from an empty store. -/
def after (ops : List KmsOp) : KmsState σ := runs K E (SelfHostedKms.start K) ops

end KmsState

end Qualigence.Kms
