import Mathlib.Data.List.MinMax
import Mathlib.Data.List.Sort
import Qualigence.Evidence.Contracts
import Qualigence.Foundation.Table

/-! # Stores of wrapping keys

The key management keeps the versions of the wrapping keys by their scopes, and the capsules
that are revoked. One store is in memory, the other keeps rows of the server's database, in which
the tenant is the first part of the scope identifier.
-/

namespace Qualigence.Kms

open Evidence Foundation

inductive KeyStatus where
  | active
  | revoked
  deriving DecidableEq

/-- A private key that is sealed under the root key. -/
structure SealedKey where
  ciphertext : String
  nonce : String
  tag : String
  deriving DecidableEq

structure StoredKmsKeyVersion where
  scopeId : String
  keyId : String
  revision : ℕ
  publicKeyPem : String
  sealedPrivateKey : SealedKey
  status : KeyStatus
  createdAt : String
  isPrimary : Bool
  deriving DecidableEq

structure CapsuleRevocation where
  scopeId : Option String
  capsuleId : String
  reason : String
  occurredAt : String
  deriving DecidableEq

inductive KeyStoreError where
  | scopeMissingTenant
  | scopeRequired
  | invalidText
  | duplicateRevision
  deriving DecidableEq

/-- The persistence port. -/
structure SelfHostedKmsKeyStore (σ : Type) where
  empty : σ
  putVersion : σ → StoredKmsKeyVersion → Except KeyStoreError σ
  listVersions : σ → String → Except KeyStoreError (List StoredKmsKeyVersion)
  getByKeyId : σ → (keyId scopeId : String) → Except KeyStoreError (Option StoredKmsKeyVersion)
  primaryVersion : σ → String → Except KeyStoreError (Option StoredKmsKeyVersion)
  setPrimary : σ → (scopeId keyId : String) → Except KeyStoreError σ
  markScopeRevoked : σ → String → Except KeyStoreError σ
  isCapsuleRevoked : σ → (scopeId capsuleId : String) → Except KeyStoreError Bool
  markCapsuleRevoked : σ → CapsuleRevocation → Except KeyStoreError σ

def ofScope (scopeId : String) (v : StoredKmsKeyVersion) : Bool := decide (v.scopeId = scopeId)

def StoredKmsKeyVersion.revoke (v : StoredKmsKeyVersion) : StoredKmsKeyVersion :=
  { v with status := .revoked }

/-! ## In memory -/

/-- The versions in the order they were put, and the keys of the revoked capsules. The maps by
key and by scope hold the same objects. -/
structure InMemoryKmsKeyStore where
  versions : List StoredKmsKeyVersion
  revokedCapsules : List String
  deriving DecidableEq

namespace InMemoryKmsKeyStore

def revocationKey (scopeId : Option String) (capsuleId : String) : String :=
  scopeId.getD "*" ++ String.singleton (Char.ofNat 0) ++ capsuleId

def putVersion (s : InMemoryKmsKeyStore) (version : StoredKmsKeyVersion) : InMemoryKmsKeyStore :=
  { s with versions := s.versions ++ [version] }

def listVersions (s : InMemoryKmsKeyStore) (scopeId : String) : List StoredKmsKeyVersion :=
  s.versions.filter (ofScope scopeId)

/-- The object that was put last under the key, if it is of the scope. -/
def getByKeyId (s : InMemoryKmsKeyStore) (keyId scopeId : String) : Option StoredKmsKeyVersion :=
  (s.versions.reverse.find? fun v => v.keyId = keyId).filter (ofScope scopeId)

def primaryVersion (s : InMemoryKmsKeyStore) (scopeId : String) : Option StoredKmsKeyVersion :=
  (s.listVersions scopeId).find? fun v => v.isPrimary && decide (v.status = .active)

def setPrimary (s : InMemoryKmsKeyStore) (scopeId keyId : String) : InMemoryKmsKeyStore :=
  { s with versions := s.versions.map fun v =>
      if ofScope scopeId v then { v with isPrimary := decide (v.keyId = keyId) } else v }

def markScopeRevoked (s : InMemoryKmsKeyStore) (scopeId : String) : InMemoryKmsKeyStore :=
  { s with versions := s.versions.map fun v => if ofScope scopeId v then v.revoke else v }

def isCapsuleRevoked (s : InMemoryKmsKeyStore) (scopeId capsuleId : String) : Bool :=
  decide (revocationKey (some scopeId) capsuleId ∈ s.revokedCapsules) ||
    decide (revocationKey none capsuleId ∈ s.revokedCapsules)

def markCapsuleRevoked (s : InMemoryKmsKeyStore) (input : CapsuleRevocation) :
    InMemoryKmsKeyStore :=
  { s with
    revokedCapsules := s.revokedCapsules ++ [revocationKey input.scopeId input.capsuleId] }

end InMemoryKmsKeyStore

def inMemory : SelfHostedKmsKeyStore InMemoryKmsKeyStore where
  empty := ⟨[], []⟩
  putVersion s version := .ok (s.putVersion version)
  listVersions s scopeId := .ok (s.listVersions scopeId)
  getByKeyId s keyId scopeId := .ok (s.getByKeyId keyId scopeId)
  primaryVersion s scopeId := .ok (s.primaryVersion scopeId)
  setPrimary s scopeId keyId := .ok (s.setPrimary scopeId keyId)
  markScopeRevoked s scopeId := .ok (s.markScopeRevoked scopeId)
  isCapsuleRevoked s scopeId capsuleId := .ok (s.isCapsuleRevoked scopeId capsuleId)
  markCapsuleRevoked s input := .ok (s.markCapsuleRevoked input)

/-! ## Rows -/

/-- A row of `self_hosted_kms_key_versions`. The other columns are kept as the version. -/
structure KeyVersionRow where
  tenantId : String
  version : StoredKmsKeyVersion
  deriving DecidableEq

/-- A row of `self_hosted_kms_capsule_revocations`. -/
structure CapsuleRevocationRow where
  tenantId : String
  capsuleId : String
  scopeId : String
  reason : String
  revokedAt : String
  deriving DecidableEq

def KeyVersionRow.key (r : KeyVersionRow) : String × String × String :=
  (r.tenantId, r.version.scopeId, r.version.keyId)

def CapsuleRevocationRow.key (r : CapsuleRevocationRow) : String × String :=
  (r.tenantId, r.capsuleId)

structure PostgresSelfHostedKmsKeyStore where
  versions : Table KeyVersionRow KeyVersionRow.key
  revocations : Table CapsuleRevocationRow CapsuleRevocationRow.key

/-- `scopeId.split("|", 1)[0]`, which is refused when it is empty. -/
def tenantFromScopeId (scopeId : String) : Except KeyStoreError String :=
  match scopeId.toList.splitOn '|' with
  | [] :: _ => .error .scopeMissingTenant
  | tenantId :: _ => .ok (String.ofList tenantId)
  | [] => .error .scopeMissingTenant

/-- The database refuses a text with a NUL character. -/
def validText (text : String) : Bool := decide (Char.ofNat 0 ∉ text.toList)

def requireText (texts : List String) : Except KeyStoreError Unit :=
  if texts.all validText then .ok () else .error .invalidText

namespace KeyVersionRow

def inScope (tenantId scopeId : String) (r : KeyVersionRow) : Bool :=
  decide (r.tenantId = tenantId) && ofScope scopeId r.version

def demote (r : KeyVersionRow) : KeyVersionRow :=
  { r with version := { r.version with isPrimary := false } }

def promote (r : KeyVersionRow) : KeyVersionRow :=
  { r with version := { r.version with isPrimary := true } }

def revoke (r : KeyVersionRow) : KeyVersionRow :=
  { r with version := { r.version with status := .revoked, isPrimary := false } }

theorem key_demote (r : KeyVersionRow) : r.demote.key = r.key := rfl
theorem key_promote (r : KeyVersionRow) : r.promote.key = r.key := rfl
theorem key_revoke (r : KeyVersionRow) : r.revoke.key = r.key := rfl

end KeyVersionRow

def CapsuleRevocationRow.overwrite (scopeId reason revokedAt : String)
    (r : CapsuleRevocationRow) : CapsuleRevocationRow :=
  { r with scopeId, reason, revokedAt }

theorem CapsuleRevocationRow.key_overwrite (scopeId reason revokedAt : String)
    (r : CapsuleRevocationRow) : (r.overwrite scopeId reason revokedAt).key = r.key := rfl

namespace PostgresSelfHostedKmsKeyStore

variable (s : PostgresSelfHostedKmsKeyStore)

/-- A version is inserted once; its revision is unique in its scope. -/
def putVersion (version : StoredKmsKeyVersion) :
    Except KeyStoreError PostgresSelfHostedKmsKeyStore := do
  let tenantId ← tenantFromScopeId version.scopeId
  requireText [version.scopeId, version.keyId]
  let row : KeyVersionRow := ⟨tenantId, version⟩
  if (s.versions.get row.key).isSome then .ok s
  else if s.versions.rows.any fun r => r.inScope tenantId version.scopeId &&
      decide (r.version.revision = version.revision) then .error .duplicateRevision
  else
    let versions := (s.versions.insert row).getD s.versions
    .ok { s with versions }

def scopeRows (tenantId scopeId : String) : List StoredKmsKeyVersion :=
  (s.versions.rows.filter (KeyVersionRow.inScope tenantId scopeId)).map KeyVersionRow.version

/-- `orderBy("revision", "asc")`. -/
def listVersions (scopeId : String) : Except KeyStoreError (List StoredKmsKeyVersion) := do
  let tenantId ← tenantFromScopeId scopeId
  requireText [scopeId]
  .ok ((s.scopeRows tenantId scopeId).insertionSort fun v v' => v.revision ≤ v'.revision)

def getByKeyId (keyId scopeId : String) :
    Except KeyStoreError (Option StoredKmsKeyVersion) := do
  let tenantId ← tenantFromScopeId scopeId
  requireText [keyId, scopeId]
  .ok ((s.versions.get (tenantId, scopeId, keyId)).map KeyVersionRow.version)

/-- `orderBy("revision", "desc")`, and the first row. -/
def primaryVersion (scopeId : String) : Except KeyStoreError (Option StoredKmsKeyVersion) := do
  let tenantId ← tenantFromScopeId scopeId
  requireText [scopeId]
  .ok (((s.scopeRows tenantId scopeId).filter fun v =>
    decide (v.status = .active) && v.isPrimary).argmax StoredKmsKeyVersion.revision)

/-- Two updates in one transaction; a revoked version is not made the primary. -/
def setPrimary (scopeId keyId : String) :
    Except KeyStoreError PostgresSelfHostedKmsKeyStore := do
  let tenantId ← tenantFromScopeId scopeId
  requireText [scopeId, keyId]
  let demoted := s.versions.update (KeyVersionRow.inScope tenantId scopeId) KeyVersionRow.demote
    KeyVersionRow.key_demote
  let versions := demoted.update (fun r => r.inScope tenantId scopeId &&
    decide (r.version.keyId = keyId) && decide (r.version.status = .active)) KeyVersionRow.promote
    KeyVersionRow.key_promote
  .ok { s with versions }

def markScopeRevoked (scopeId : String) : Except KeyStoreError PostgresSelfHostedKmsKeyStore := do
  let tenantId ← tenantFromScopeId scopeId
  requireText [scopeId]
  let versions := s.versions.update (KeyVersionRow.inScope tenantId scopeId) KeyVersionRow.revoke
    KeyVersionRow.key_revoke
  .ok { s with versions }

def isCapsuleRevoked (scopeId capsuleId : String) : Except KeyStoreError Bool := do
  let tenantId ← tenantFromScopeId scopeId
  requireText [scopeId, capsuleId]
  .ok (s.revocations.rows.any fun r =>
    decide (r.tenantId = tenantId ∧ r.scopeId = scopeId ∧ r.capsuleId = capsuleId))

/-- Inserted, or written over the revocation of the capsule that the tenant has. -/
def markCapsuleRevoked (input : CapsuleRevocation) :
    Except KeyStoreError PostgresSelfHostedKmsKeyStore := do
  match input.scopeId with
  | none => .error .scopeRequired
  | some scopeId =>
    let tenantId ← tenantFromScopeId scopeId
    requireText [scopeId, input.capsuleId, input.reason, input.occurredAt]
    let row : CapsuleRevocationRow :=
      ⟨tenantId, input.capsuleId, scopeId, input.reason, input.occurredAt⟩
    let overwritten := s.revocations.update (fun r => decide (r.key = row.key))
      (CapsuleRevocationRow.overwrite scopeId input.reason input.occurredAt)
      (CapsuleRevocationRow.key_overwrite _ _ _)
    let revocations := (s.revocations.insert row).getD overwritten
    .ok { s with revocations }

end PostgresSelfHostedKmsKeyStore

def postgres : SelfHostedKmsKeyStore PostgresSelfHostedKmsKeyStore where
  empty := ⟨.empty, .empty⟩
  putVersion := PostgresSelfHostedKmsKeyStore.putVersion
  listVersions := PostgresSelfHostedKmsKeyStore.listVersions
  getByKeyId := PostgresSelfHostedKmsKeyStore.getByKeyId
  primaryVersion := PostgresSelfHostedKmsKeyStore.primaryVersion
  setPrimary := PostgresSelfHostedKmsKeyStore.setPrimary
  markScopeRevoked := PostgresSelfHostedKmsKeyStore.markScopeRevoked
  isCapsuleRevoked := PostgresSelfHostedKmsKeyStore.isCapsuleRevoked
  markCapsuleRevoked := PostgresSelfHostedKmsKeyStore.markCapsuleRevoked

end Qualigence.Kms
