import Qualigence.Evidence.Envelope
import Qualigence.Foundation.Program

/-! # The audit trail of the envelope encryptor

Encryption and decryption against any key management, as programs that append to the audit trail
and may throw. Their own errors are audited on the way out. What the library throws is not, and it
gets out in two places: a data key or a nonce that opens no decipher, and an entry of a payload
whose properties the check of the entry cannot use.
-/

namespace Qualigence.Evidence

open Foundation Protocol Kms

/-- What Node.js provides besides the digest and the cipher: the keys and nonces that a cipher is
opened with, and the bytes that `Buffer.from(value, "base64")` makes of a value of a payload. The
keys and nonces that encryption draws are accepted. -/
structure CapsuleLibrary extends CapsuleCrypto where
  opensCipher : (key nonce : List UInt8) → Bool
  bufferFrom : JsValue → Option (List UInt8)
  opensCipher_drawn : ∀ key nonce, key.length = dekBytes → nonce.length = nonceBytes →
    opensCipher key nonce

/-- How a key management answers. What it throws is an error of a capsule or any other. -/
structure KeyManagementProvider where
  wrapDek : EvidenceEncryptionProfile → List UInt8 → Except EnvelopeError String
  unwrapDek : RemoteEvidenceCapsuleManifest → EvidenceKeyScope → Except EnvelopeError (List UInt8)

inductive EncryptorOp where
  | wrapDek (profile : EvidenceEncryptionProfile) (dek : List UInt8)
  | unwrapDek (manifest : RemoteEvidenceCapsuleManifest) (scope : EvidenceKeyScope)
  | record (event : EvidenceAuditEvent)

abbrev encryptorSignature : Signature where
  Op := EncryptorOp
  Reply
    | .wrapDek _ _ => String
    | .unwrapDek _ _ => List UInt8
    | .record _ => Unit

abbrev Encrypting (α : Type) := Program encryptorSignature EnvelopeError α

/-- The key management answers, and the audit sink appends to the trail. -/
def KeyManagementProvider.handler (kms : KeyManagementProvider) :
    Handler encryptorSignature EnvelopeError (List EvidenceAuditEvent)
  | .wrapDek profile dek, trail => (kms.wrapDek profile dek, trail)
  | .unwrapDek manifest scope, trail => (kms.unwrapDek manifest scope, trail)
  | .record event, trail => (.ok (), trail ++ [event])

/-! ## Entries -/

mutual

/-- The text that a template literal gives a value of a payload. An object with an own `toString`
has none, since the property is no function. -/
def templateText : JsValue → Option String
  | .undefined => some "undefined"
  | .null => some "null"
  | .bool b => some (toString b)
  | .int n => some (toString n)
  | .real text => some text
  | .str s => some s
  | .arr items => (templateItems items).map fun texts => ",".intercalate texts
  | .obj fields => if (fields.any fun f => f.1 = "toString") then none else some "[object Object]"

/-- The texts of the items that `join` puts together. -/
def templateItems : List JsValue → Option (List String)
  | [] => some []
  | .undefined :: items => (templateItems items).map fun texts => "" :: texts
  | .null :: items => (templateItems items).map fun texts => "" :: texts
  | item :: items => do
    let text ← templateText item
    let texts ← templateItems items
    some (text :: texts)

end

namespace CapsuleLibrary

variable (L : CapsuleLibrary)

/-- A template that cannot be filled throws an error of its own. -/
def violation (message : Option String) : EnvelopeError :=
  match message with
  | none => .typeError
  | some message => integrityViolation message

def verifyCapsuleEntry (entry : JsValue) : Except EnvelopeError Unit := do
  let data ← property entry "dataBase64"
  match L.bufferFrom data with
  | none => .error .typeError
  | some bytes =>
    let plaintextBytes ← property entry "plaintextBytes"
    let entryId ← property entry "entryId"
    if plaintextBytes ≠ .int bytes.length then
      .error (violation do
        let entryId ← templateText entryId
        let declared ← templateText plaintextBytes
        some ("Entry " ++ entryId ++ " size " ++ toString bytes.length ++
          " does not match declared " ++ declared ++ "."))
    else if (← property entry "plaintextSha256") ≠ .str (L.sha256Hex bytes) then
      .error (violation do
        let entryId ← templateText entryId
        some ("Entry " ++ entryId ++ " hash does not match its bytes."))
    else .ok ()

def verifyEntries : List JsValue → Except EnvelopeError Unit
  | [] => .ok ()
  | entry :: entries => do
    L.verifyCapsuleEntry entry
    verifyEntries entries

def schemaInvalid (message : String) : EnvelopeError := .capsule ⟨.evidenceSchemaInvalid, message⟩

def parsePayload (plaintext : List UInt8) (header : EvidenceCapsuleProtectedHeader) :
    Except EnvelopeError JsValue :=
  if plaintext.length ≠ header.plaintextBytes ∨
      L.sha256Hex plaintext ≠ header.plaintextSha256 then
    .error (integrityViolation "Decrypted plaintext does not match the header digest.")
  else match parseJson (utf8Decode plaintext) with
    | none => .error (schemaInvalid "Payload is not valid JSON.")
    | some (.obj fields) =>
      match JsValue.field "schemaVersion" fields, JsValue.field "runId" fields,
        JsValue.field "entries" fields with
      | .str "evidence-capsule/v1", .str _, .arr entries => do
        L.verifyEntries entries
        .ok (.obj fields)
      | _, _, _ => .error (schemaInvalid "Payload does not match evidence-capsule/v1.")
    | some _ => .error (schemaInvalid "Payload does not match evidence-capsule/v1.")

end CapsuleLibrary

/-! ## The encryptor -/

namespace AuditedEncryptor

open EvidenceEnvelopeEncryptor

variable (L : CapsuleLibrary)

def ofExcept {α : Type} : Except EnvelopeError α → Encrypting α
  | .ok a => pure a
  | .error e => .throw e

def record (event : EvidenceAuditEvent) : Encrypting Unit :=
  Program.perform (S := encryptorSignature) (.record event)

def encrypt (d : EncryptDraws) (payload : EvidenceCapsulePayload)
    (profile : EvidenceEncryptionProfile) (context : EncryptCapsuleContext) :
    Encrypting EncryptedCapsule :=
  let createdAt := context.createdAt.getD d.now
  let capsuleId := context.capsuleId.getD d.capsuleId
  let event (outcome : AuditOutcome) : EvidenceAuditEvent :=
    write d.toCallDraws profile capsuleId context.actor outcome
  if utf16Le profile.expiresAt createdAt then do
    record (event ⟨"wrap", "denied", "EvidenceExpired"⟩)
    .throw (.capsule ⟨.evidenceExpired, "Profile " ++ profile.profileId ++ " expired at " ++
      profile.expiresAt ++ "."⟩)
  else
    let header := headerOf L.toCapsuleCrypto d payload profile context
    let aad := canonicalProtectedHeaderBytes header
    if L.opensCipher d.dek d.nonce = false then .throw .typeError
    else
      let sealedBytes := L.aesGcmSeal d.dek d.nonce aad (canonicalPayloadBytes payload)
      do
      let wrappedDekBase64 : String ←
        (Program.perform (S := encryptorSignature) (.wrapDek profile d.dek)).tryCatch fun _ => do
          record (event ⟨"wrap", "failed", "EvidenceLimited"⟩)
          .throw (.capsule
            ⟨.evidenceLimited, "KMS is unavailable; refusing plaintext fallback."⟩)
      let manifest : RemoteEvidenceCapsuleManifest :=
        { protectedHeader := header
          ciphertextSha256 := L.sha256Hex sealedBytes.1
          ciphertextBytes := sealedBytes.1.length
          wrappedDekBase64
          nonceBase64 := toBase64 d.nonce
          authTagBase64 := toBase64 sealedBytes.2 }
      record (event ⟨"wrap", "allowed", "ok"⟩)
      pure ⟨manifest, sealedBytes.1⟩

/-- Only an error of a capsule is audited before it is thrown again. -/
def auditThrown {α : Type} (event : AuditOutcome → EvidenceAuditEvent) :
    EnvelopeError → Encrypting α
  | .capsule error => do
    record (event ⟨"unwrap", "denied", error.code.text⟩)
    .throw (.capsule error)
  | .typeError => .throw .typeError

/-- The bound manifest and the scope of the header. -/
def checkBoundary (encrypted : EncryptedCapsule) (context : EvidenceDecryptionContext)
    (now : String) : Except EnvelopeError Unit :=
  (do boundManifest L.toCapsuleCrypto encrypted.manifest encrypted.ciphertext
      assertScope encrypted.manifest context now).mapError .capsule

/-- The code that a failure to unwrap is audited with. -/
def unwrapCode : EnvelopeError → EvidenceCapsuleErrorCode
  | .capsule error =>
    if error.code = .evidenceKeyRevoked ∨ error.code = .evidenceLimited then error.code
    else .evidenceIntegrityViolation
  | .typeError => .evidenceIntegrityViolation

def unwrapFailed {α : Type} (event : AuditOutcome → EvidenceAuditEvent) (cause : EnvelopeError) :
    Encrypting α := do
  let code := unwrapCode cause
  record (event ⟨"unwrap", if code = .evidenceLimited then "failed" else "denied", code.text⟩)
  match cause with
  | .capsule error => .throw (.capsule error)
  | .typeError => .throw (integrityViolation "DEK unwrap failed.")

/-- Open the ciphertext under a data key and read the payload. -/
def openPayload (dek : List UInt8) (encrypted : EncryptedCapsule) :
    Except EnvelopeError JsValue :=
  let header := encrypted.manifest.protectedHeader
  let aad := canonicalProtectedHeaderBytes header
  let nonce := fromBase64 encrypted.manifest.nonceBase64
  let authTag := fromBase64 encrypted.manifest.authTagBase64
  if authTag.length ≠ authTagBytes then
    .error (integrityViolation "Auth tag length is invalid.")
  else if L.opensCipher dek nonce = false then .error .typeError
  else match L.aesGcmOpen dek nonce aad encrypted.ciphertext authTag with
    | none => .error (integrityViolation "Ciphertext, auth tag or AAD failed authentication.")
    | some plaintext => L.parsePayload plaintext header

/-- The payload, with an audit event on it. -/
def readPayload (event : AuditOutcome → EvidenceAuditEvent) (dek : List UInt8)
    (encrypted : EncryptedCapsule) : Encrypting JsValue :=
  Program.tryCatch (do
    let payload ← ofExcept (openPayload L dek encrypted)
    record (event ⟨"unwrap", "allowed", "ok"⟩)
    pure payload) (auditThrown event)

def decrypt (d : CallDraws) (encrypted : EncryptedCapsule) (context : EvidenceDecryptionContext) :
    Encrypting JsValue := do
  let event (outcome : AuditOutcome) : EvidenceAuditEvent :=
    writeFromHeader d encrypted.manifest.protectedHeader context.actor outcome
  (ofExcept (checkBoundary L encrypted context (context.now.getD d.now))).tryCatch
    (auditThrown event)
  let dek : List UInt8 ← (Program.perform (S := encryptorSignature)
    (.unwrapDek encrypted.manifest
      ⟨context.tenantId, context.caseId, context.region, context.purpose⟩)).tryCatch
    (unwrapFailed event)
  readPayload L event dek encrypted

end AuditedEncryptor

end Qualigence.Evidence
