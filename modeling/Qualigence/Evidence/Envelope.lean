import Qualigence.Kms.Isolation
import Qualigence.Protocol.Buffers
import Qualigence.Protocol.JsonParse

/-! # Capsule envelopes

A payload is sealed under a fresh data key, with the canonical text of the protected header as the
only associated data, and the key management wraps the data key. Decryption bounds the manifest,
compares the header with the authenticated context, unwraps the data key, opens the ciphertext and
checks the payload.
-/

namespace Qualigence.Evidence

open Protocol Kms

inductive EvidenceCapsuleErrorCode where
  | evidenceIntegrityViolation
  | evidenceScopeMismatch
  | evidenceProfileMismatch
  | evidenceExpired
  | evidenceKeyRevoked
  | evidenceLimited
  | evidenceEntryLimitExceeded
  | evidenceKindNotAllowed
  | evidenceSchemaInvalid
  | evidenceManifestInvalid
  deriving DecidableEq

def EvidenceCapsuleErrorCode.text : EvidenceCapsuleErrorCode → String
  | .evidenceIntegrityViolation => "EvidenceIntegrityViolation"
  | .evidenceScopeMismatch => "EvidenceScopeMismatch"
  | .evidenceProfileMismatch => "EvidenceProfileMismatch"
  | .evidenceExpired => "EvidenceExpired"
  | .evidenceKeyRevoked => "EvidenceKeyRevoked"
  | .evidenceLimited => "EvidenceLimited"
  | .evidenceEntryLimitExceeded => "EvidenceEntryLimitExceeded"
  | .evidenceKindNotAllowed => "EvidenceKindNotAllowed"
  | .evidenceSchemaInvalid => "EvidenceSchemaInvalid"
  | .evidenceManifestInvalid => "EvidenceManifestInvalid"

structure EvidenceCapsuleError where
  code : EvidenceCapsuleErrorCode
  message : String
  deriving DecidableEq

/-- What encryption and decryption throw: an error of the capsule, or that of a property of a value
that has none. -/
inductive EnvelopeError where
  | capsule (error : EvidenceCapsuleError)
  | typeError
  deriving DecidableEq

/-- The digest and AES-256-GCM of `node:crypto`. -/
structure CapsuleCrypto where
  sha256Hex : List UInt8 → String
  aesGcmSeal : (key nonce aad plaintext : List UInt8) → List UInt8 × List UInt8
  aesGcmOpen : (key nonce aad ciphertext tag : List UInt8) → Option (List UInt8)

def dekBytes : ℕ := 32
def nonceBytes : ℕ := 12
def authTagBytes : ℕ := 16
def maxManifestCiphertextBytes : ℕ := 64 * 1024 * 1024

/-- What a call reads of the clock and draws for its audit event. -/
structure CallDraws where
  auditId : String
  now : String
  occurredAt : String

/-- What encryption draws besides: random bytes and an identifier. -/
structure EncryptDraws extends CallDraws where
  dek : List UInt8
  nonce : List UInt8
  capsuleId : String
  dek_length : dek.length = dekBytes
  nonce_length : nonce.length = nonceBytes

structure EncryptCapsuleContext where
  actor : EvidenceActor
  capsuleId : Option String
  createdAt : Option String

structure EncryptedCapsule where
  manifest : RemoteEvidenceCapsuleManifest
  ciphertext : List UInt8
  deriving DecidableEq

structure EvidenceDecryptionContext where
  actor : EvidenceActor
  tenantId : String
  caseId : String
  recipient : String
  region : String
  purpose : String
  policyId : String
  now : Option String

/-! ## Canonical texts -/

def EvidenceCapsuleEntry.toValue (entry : EvidenceCapsuleEntry) : JsValue :=
  .obj [("entryId", .str entry.entryId), ("kind", .str entry.kind),
    ("mediaType", .str entry.mediaType), ("plaintextSha256", .str entry.plaintextSha256),
    ("plaintextBytes", .int entry.plaintextBytes), ("dataBase64", .str entry.dataBase64)]

def EvidenceCapsulePayload.toValue (payload : EvidenceCapsulePayload) : JsValue :=
  .obj [("schemaVersion", .str payload.schemaVersion), ("runId", .str payload.runId),
    ("entries", .arr (payload.entries.map EvidenceCapsuleEntry.toValue))]

def EvidenceCapsuleProtectedHeader.toValue (header : EvidenceCapsuleProtectedHeader) : JsValue :=
  .obj [("schemaVersion", .str header.schemaVersion), ("capsuleId", .str header.capsuleId),
    ("profileId", .str header.profileId),
    ("payloadSchemaVersion", .str header.payloadSchemaVersion),
    ("tenantId", .str header.tenantId), ("caseId", .str header.caseId),
    ("recipient", .str header.recipient), ("region", .str header.region),
    ("purpose", .str header.purpose), ("policyId", .str header.policyId),
    ("contentEncryptionAlgorithm", .str header.contentEncryptionAlgorithm),
    ("keyWrappingAlgorithm", .str header.keyWrappingAlgorithm),
    ("wrappingKeyId", .str header.wrappingKeyId),
    ("plaintextSha256", .str header.plaintextSha256),
    ("plaintextBytes", .int header.plaintextBytes), ("createdAt", .str header.createdAt),
    ("expiresAt", .str header.expiresAt)]

/-- `Buffer.from(canonicalJson(value), "utf8")`. -/
def canonicalBytes (value : JsValue) : List UInt8 := utf8Encode (textOf (canonicalize value))

def canonicalProtectedHeaderBytes (header : EvidenceCapsuleProtectedHeader) : List UInt8 :=
  canonicalBytes header.toValue

def canonicalPayloadBytes (payload : EvidenceCapsulePayload) : List UInt8 :=
  canonicalBytes payload.toValue

structure ProtectedHeaderServerFields where
  capsuleId : String
  createdAt : String
  plaintextSha256 : String
  plaintextBytes : ℕ

def headerFromProfile (profile : EvidenceEncryptionProfile) (server : ProtectedHeaderServerFields) :
    EvidenceCapsuleProtectedHeader where
  schemaVersion := profile.aadSchemaVersion
  capsuleId := server.capsuleId
  profileId := profile.profileId
  payloadSchemaVersion := "evidence-capsule/v1"
  tenantId := profile.tenantId
  caseId := profile.caseId
  recipient := profile.recipient
  region := profile.region
  purpose := profile.purpose
  policyId := profile.policyId
  contentEncryptionAlgorithm := profile.contentEncryptionAlgorithm
  keyWrappingAlgorithm := profile.keyWrappingAlgorithm
  wrappingKeyId := profile.wrappingKeyId
  plaintextSha256 := server.plaintextSha256
  plaintextBytes := server.plaintextBytes
  createdAt := server.createdAt
  expiresAt := profile.expiresAt

/-! ## Entries -/

section Entries

variable (C : CapsuleCrypto)

def encodeCapsuleEntry (kind mediaType entryId : String) (bytes : List UInt8) :
    EvidenceCapsuleEntry where
  entryId := entryId
  kind := kind
  mediaType := mediaType
  plaintextSha256 := C.sha256Hex bytes
  plaintextBytes := bytes.length
  dataBase64 := toBase64 bytes

def integrityViolation (message : String) : EnvelopeError :=
  .capsule ⟨.evidenceIntegrityViolation, message⟩

/-- A property of a value; `null` and `undefined` have none. -/
def property (value : JsValue) (key : String) : Except EnvelopeError JsValue :=
  match value with
  | .undefined => .error .typeError
  | .null => .error .typeError
  | .obj fields => .ok (JsValue.field key fields)
  | _ => .ok .undefined

/-- The text that a template literal gives a property of an entry. -/
def shownText : JsValue → String
  | .str s => s
  | .int n => toString n
  | .real text => text
  | .bool b => toString b
  | .null => "null"
  | _ => "undefined"

/-- The declared size and digest of an entry are those of its bytes. A `dataBase64` that is no text
is refused by `Buffer.from`. -/
def verifyCapsuleEntry (entry : JsValue) : Except EnvelopeError Unit := do
  match ← property entry "dataBase64" with
  | .str dataBase64 =>
    let bytes := fromBase64 dataBase64
    let entryId := shownText (← property entry "entryId")
    let plaintextBytes ← property entry "plaintextBytes"
    if plaintextBytes ≠ .int bytes.length then
      .error (integrityViolation ("Entry " ++ entryId ++ " size " ++ toString bytes.length ++
        " does not match declared " ++ shownText plaintextBytes ++ "."))
    else if (← property entry "plaintextSha256") ≠ .str (C.sha256Hex bytes) then
      .error (integrityViolation ("Entry " ++ entryId ++ " hash does not match its bytes."))
    else .ok ()
  | _ => .error .typeError

def verifyEntries : List JsValue → Except EnvelopeError Unit
  | [] => .ok ()
  | entry :: entries => do
    verifyCapsuleEntry C entry
    verifyEntries entries

end Entries

/-! ## The encryptor -/

namespace EvidenceEnvelopeEncryptor

variable {σ : Type} (K : SelfHostedKmsKeyStore σ) (E : KmsEnvironment) (C : CapsuleCrypto)

/-- The outcome of a call, with the audit event that it wrote. -/
abbrev Audited (α : Type) := Except EnvelopeError α × Option EvidenceAuditEvent

def write (d : CallDraws) (profile : EvidenceEncryptionProfile) (capsuleId : String)
    (actor : EvidenceActor) (outcome : AuditOutcome) : EvidenceAuditEvent where
  auditId := d.auditId
  actorType := actor.actorType
  actorId := actor.actorId
  tenantId := profile.tenantId
  caseId := profile.caseId
  capsuleId := capsuleId
  keyVersion := profile.wrappingKeyId
  purpose := profile.purpose
  operation := outcome.operation
  decision := outcome.decision
  reasonCode := outcome.reasonCode
  correlationId := actor.correlationId
  occurredAt := d.occurredAt

def writeFromHeader (d : CallDraws) (header : EvidenceCapsuleProtectedHeader)
    (actor : EvidenceActor) (outcome : AuditOutcome) : EvidenceAuditEvent where
  auditId := d.auditId
  actorType := actor.actorType
  actorId := actor.actorId
  tenantId := header.tenantId
  caseId := header.caseId
  capsuleId := header.capsuleId
  keyVersion := header.wrappingKeyId
  purpose := header.purpose
  operation := outcome.operation
  decision := outcome.decision
  reasonCode := outcome.reasonCode
  correlationId := actor.correlationId
  occurredAt := d.occurredAt

/-- The header of a capsule. -/
def headerOf (d : EncryptDraws) (payload : EvidenceCapsulePayload)
    (profile : EvidenceEncryptionProfile) (context : EncryptCapsuleContext) :
    EvidenceCapsuleProtectedHeader :=
  let plaintext := canonicalPayloadBytes payload
  headerFromProfile profile
    { capsuleId := context.capsuleId.getD d.capsuleId
      createdAt := context.createdAt.getD d.now
      plaintextSha256 := C.sha256Hex plaintext
      plaintextBytes := plaintext.length }

def encrypt (s : KmsState σ) (d : EncryptDraws) (payload : EvidenceCapsulePayload)
    (profile : EvidenceEncryptionProfile) (context : EncryptCapsuleContext) :
    Audited EncryptedCapsule × KmsState σ :=
  let createdAt := context.createdAt.getD d.now
  let capsuleId := context.capsuleId.getD d.capsuleId
  if utf16Le profile.expiresAt createdAt then
    ((.error (.capsule ⟨.evidenceExpired, "Profile " ++ profile.profileId ++ " expired at " ++
        profile.expiresAt ++ "."⟩),
      some (write d.toCallDraws profile capsuleId context.actor
        ⟨"wrap", "denied", "EvidenceExpired"⟩)), s)
  else
    let header := headerOf C d payload profile context
    let aad := canonicalProtectedHeaderBytes header
    let (ciphertext, authTag) := C.aesGcmSeal d.dek d.nonce aad (canonicalPayloadBytes payload)
    match SelfHostedKms.wrapDek K E s profile d.dek with
    | (.error _, s) =>
      ((.error (.capsule ⟨.evidenceLimited, "KMS is unavailable; refusing plaintext fallback."⟩),
        some (write d.toCallDraws profile capsuleId context.actor
          ⟨"wrap", "failed", "EvidenceLimited"⟩)), s)
    | (.ok wrappedDekBase64, s) =>
      let manifest : RemoteEvidenceCapsuleManifest :=
        { protectedHeader := header
          ciphertextSha256 := C.sha256Hex ciphertext
          ciphertextBytes := ciphertext.length
          wrappedDekBase64
          nonceBase64 := toBase64 d.nonce
          authTagBase64 := toBase64 authTag }
      ((.ok ⟨manifest, ciphertext⟩,
        some (write d.toCallDraws profile capsuleId context.actor ⟨"wrap", "allowed", "ok"⟩)), s)

def boundManifest (manifest : RemoteEvidenceCapsuleManifest) (ciphertext : List UInt8) :
    Except EvidenceCapsuleError Unit :=
  let header := manifest.protectedHeader
  let fail (message : String) : Except EvidenceCapsuleError Unit :=
    .error ⟨.evidenceManifestInvalid, message⟩
  if manifest.ciphertextBytes ≠ ciphertext.length then
    fail "Manifest ciphertextBytes does not match ciphertext length."
  else if manifest.ciphertextBytes > maxManifestCiphertextBytes then
    fail "Manifest ciphertext exceeds the hard size bound."
  else if C.sha256Hex ciphertext ≠ manifest.ciphertextSha256 then
    .error ⟨.evidenceIntegrityViolation, "Ciphertext does not match the manifest digest."⟩
  else if header.contentEncryptionAlgorithm ≠ "A256GCM" then
    fail "Unsupported content encryption algorithm."
  else if header.keyWrappingAlgorithm ≠ "RSA-OAEP-256" then
    fail "Unsupported key wrapping algorithm."
  else .ok ()

/-- The first field of the header that is not that of the context. -/
def scopeMismatch (header : EvidenceCapsuleProtectedHeader) (context : EvidenceDecryptionContext) :
    Option String :=
  if header.tenantId ≠ context.tenantId then some "tenantId"
  else if header.caseId ≠ context.caseId then some "caseId"
  else if header.recipient ≠ context.recipient then some "recipient"
  else if header.region ≠ context.region then some "region"
  else if header.purpose ≠ context.purpose then some "purpose"
  else if header.policyId ≠ context.policyId then some "policyId"
  else none

def assertScope (manifest : RemoteEvidenceCapsuleManifest) (context : EvidenceDecryptionContext)
    (now : String) : Except EvidenceCapsuleError Unit :=
  let header := manifest.protectedHeader
  match scopeMismatch header context with
  | some mismatch => .error ⟨.evidenceScopeMismatch, "Protected header " ++ mismatch ++
      " does not match the authenticated context."⟩
  | none =>
    if utf16Le header.expiresAt now then
      .error ⟨.evidenceExpired, "Capsule " ++ header.capsuleId ++ " expired at " ++
        header.expiresAt ++ "."⟩
    else .ok ()

def parsePayload (plaintext : List UInt8) (header : EvidenceCapsuleProtectedHeader) :
    Except EnvelopeError JsValue :=
  if plaintext.length ≠ header.plaintextBytes ∨
      C.sha256Hex plaintext ≠ header.plaintextSha256 then
    .error (integrityViolation "Decrypted plaintext does not match the header digest.")
  else match parseJson (utf8Decode plaintext) with
    | none => .error (.capsule ⟨.evidenceSchemaInvalid, "Payload is not valid JSON."⟩)
    | some (.obj fields) =>
      match JsValue.field "schemaVersion" fields, JsValue.field "runId" fields,
        JsValue.field "entries" fields with
      | .str "evidence-capsule/v1", .str _, .arr entries => do
        verifyEntries C entries
        .ok (.obj fields)
      | _, _, _ =>
        .error (.capsule ⟨.evidenceSchemaInvalid, "Payload does not match evidence-capsule/v1."⟩)
    | some _ =>
      .error (.capsule ⟨.evidenceSchemaInvalid, "Payload does not match evidence-capsule/v1."⟩)

/-- Open the ciphertext under a data key and read the payload. A key of another length and an empty
nonce are no arguments of the cipher. -/
def openPayload (dek : List UInt8) (encrypted : EncryptedCapsule) :
    Except EnvelopeError JsValue :=
  let header := encrypted.manifest.protectedHeader
  let aad := canonicalProtectedHeaderBytes header
  let nonce := fromBase64 encrypted.manifest.nonceBase64
  let authTag := fromBase64 encrypted.manifest.authTagBase64
  if authTag.length ≠ authTagBytes then
    .error (integrityViolation "Auth tag length is invalid.")
  else if dek.length ≠ dekBytes ∨ nonce = [] then .error .typeError
  else match C.aesGcmOpen dek nonce aad encrypted.ciphertext authTag with
    | none =>
      .error (integrityViolation "Ciphertext, auth tag or AAD failed authentication.")
    | some plaintext => parsePayload C plaintext header

def decrypt (s : KmsState σ) (d : CallDraws) (encrypted : EncryptedCapsule)
    (context : EvidenceDecryptionContext) : Audited JsValue :=
  let header := encrypted.manifest.protectedHeader
  let now := context.now.getD d.now
  let denied (code : EvidenceCapsuleErrorCode) : EvidenceAuditEvent :=
    writeFromHeader d header context.actor ⟨"unwrap", "denied", code.text⟩
  match (do boundManifest C encrypted.manifest encrypted.ciphertext
            assertScope encrypted.manifest context now) with
  | .error error => (.error (.capsule error), some (denied error.code))
  | .ok () =>
    match SelfHostedKms.unwrapDek K E s encrypted.manifest
      ⟨context.tenantId, context.caseId, context.region, context.purpose⟩ with
    | .error _ =>
      (.error (integrityViolation "DEK unwrap failed."),
        some (denied .evidenceIntegrityViolation))
    | .ok dek =>
      match openPayload C dek encrypted with
      | .error (.capsule error) => (.error (.capsule error), some (denied error.code))
      | .error .typeError => (.error .typeError, none)
      | .ok payload =>
        (.ok payload, some (writeFromHeader d header context.actor ⟨"unwrap", "allowed", "ok"⟩))

end EvidenceEnvelopeEncryptor

end Qualigence.Evidence
