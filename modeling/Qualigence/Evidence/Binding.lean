import Mathlib.Algebra.Group.Nat.Defs
import Qualigence.Evidence.Envelope

/-! # Binding of capsule envelopes

The canonical text of a header is read back, so that it is the text of no other header. With ideal
ciphers a capsule is opened to the payload that was sealed in it, and a capsule that keeps the
wrapped key or the sealed bytes of another is opened when it is the other one.
-/

namespace Qualigence.Evidence

open Protocol Kms

/-! ## Reading canonical texts -/

/-- The entry that a value of a payload stands for. -/
def EvidenceCapsuleEntry.ofValue : JsValue → Option EvidenceCapsuleEntry
  | .obj fields =>
    match JsValue.field "entryId" fields, JsValue.field "kind" fields,
      JsValue.field "mediaType" fields, JsValue.field "plaintextSha256" fields,
      JsValue.field "plaintextBytes" fields, JsValue.field "dataBase64" fields with
    | .str entryId, .str kind, .str mediaType, .str plaintextSha256, .int (.ofNat plaintextBytes),
      .str dataBase64 =>
      some ⟨entryId, kind, mediaType, plaintextSha256, plaintextBytes, dataBase64⟩
    | _, _, _, _, _, _ => none
  | _ => none

/-- The payload that a decrypted value stands for. -/
def EvidenceCapsulePayload.ofValue : JsValue → Option EvidenceCapsulePayload
  | .obj fields =>
    match JsValue.field "schemaVersion" fields, JsValue.field "runId" fields,
      JsValue.field "entries" fields with
    | .str schemaVersion, .str runId, .arr entries =>
      (entries.mapM EvidenceCapsuleEntry.ofValue).map fun entries => ⟨schemaVersion, runId, entries⟩
    | _, _, _ => none
  | _ => none

theorem EvidenceCapsuleEntry.plain_toValue (entry : EvidenceCapsuleEntry) :
    Protocol.Plain entry.toValue := by
  simp [toValue, Protocol.Plain, PlainFields]

theorem EvidenceCapsulePayload.plain_toValue (payload : EvidenceCapsulePayload) :
    Protocol.Plain payload.toValue := by
  have he : PlainItems (payload.entries.map EvidenceCapsuleEntry.toValue) := by
    rw [plainItems_iff]
    intro v hv
    obtain ⟨entry, -, rfl⟩ := List.mem_map.mp hv
    exact entry.plain_toValue
  simp [toValue, Protocol.Plain, PlainFields, he]

theorem EvidenceCapsuleProtectedHeader.plain_toValue (header : EvidenceCapsuleProtectedHeader) :
    Protocol.Plain header.toValue := by
  simp [toValue, Protocol.Plain, PlainFields]

/-- Canonical bytes are parsed to the canonical value. -/
theorem parseJson_canonicalBytes {v : JsValue} (h : Protocol.Plain v) :
    parseJson (utf8Decode (canonicalBytes v)) = some (canonicalize v) := by
  rw [canonicalBytes, utf8Decode_utf8Encode, parseJson_textOf (Plain.printed _ (plain_canonicalize v h))]

theorem canonicalBytes_injective {v w : JsValue} (hv : Protocol.Plain v) (hw : Protocol.Plain w)
    (h : canonicalBytes v = canonicalBytes w) : canonicalize v = canonicalize w := by
  have hp := parseJson_canonicalBytes hv
  rw [h, parseJson_canonicalBytes hw] at hp
  exact (Option.some.inj hp).symm

@[simp] theorem canonicalize_str (s : String) : canonicalize (.str s) = .str s := rfl
@[simp] theorem canonicalize_int (n : Int) : canonicalize (.int n) = .int n := rfl

theorem EvidenceCapsuleEntry.ofValue_canonicalize (entry : EvidenceCapsuleEntry) :
    ofValue (canonicalize entry.toValue) = some entry := by
  have hn := entry.plain_toValue.1
  simp only [toValue, canonicalize_obj, ofValue] at hn ⊢
  simp only [field_canonicalFieldsOf _ hn]
  rfl

theorem EvidenceCapsulePayload.ofValue_canonicalize (payload : EvidenceCapsulePayload) :
    ofValue (canonicalize payload.toValue) = some payload := by
  have hn := payload.plain_toValue.1
  have he : ∀ entries : List EvidenceCapsuleEntry,
      ((entries.map EvidenceCapsuleEntry.toValue).map canonicalize).mapM
        EvidenceCapsuleEntry.ofValue = some entries := by
    intro entries
    induction entries with
    | nil => rfl
    | cons entry entries ih =>
      rw [List.map_cons, List.map_cons, List.mapM_cons, entry.ofValue_canonicalize, ih]
      rfl
  simp only [toValue, canonicalize_obj, ofValue] at hn ⊢
  simp only [field_canonicalFieldsOf _ hn, JsValue.field_cons, canonicalize_arr, canonicalize_str,
    String.reduceEq, if_false, if_true, he, Option.map_some]

/-- The associated data of a header determines the header. -/
theorem canonicalProtectedHeaderBytes_injective :
    Function.Injective canonicalProtectedHeaderBytes := by
  intro header header' h
  have hc := canonicalBytes_injective header.plain_toValue header'.plain_toValue h
  have hf := canonicalizeFields_eq_of_canonicalize header.plain_toValue.1 (by rfl) hc
  cases header
  cases header'
  simp only [canonicalizeFields, canonicalize_str, canonicalize_int, List.cons.injEq, Prod.mk.injEq,
    JsValue.str.injEq, JsValue.int.injEq, Int.natCast_inj, true_and, and_true] at hf
  rw [EvidenceCapsuleProtectedHeader.mk.injEq]
  exact hf

/-! ## Payloads -/

section Payloads

variable (C : CapsuleCrypto)

/-- The declared size and digest of an entry are those of its bytes. -/
structure EntryVerified (entry : EvidenceCapsuleEntry) : Prop where
  bytes : (fromBase64 entry.dataBase64).length = entry.plaintextBytes
  digest : C.sha256Hex (fromBase64 entry.dataBase64) = entry.plaintextSha256

variable {C}

theorem entryVerified_encodeCapsuleEntry (kind mediaType entryId : String) (bytes : List UInt8) :
    EntryVerified C (encodeCapsuleEntry C kind mediaType entryId bytes) where
  bytes := by simp [encodeCapsuleEntry]
  digest := by simp [encodeCapsuleEntry]

theorem verifyCapsuleEntry_of_verified {entry : EvidenceCapsuleEntry}
    (h : EntryVerified C entry) : verifyCapsuleEntry C (canonicalize entry.toValue) = .ok () := by
  have hn := entry.plain_toValue.1
  simp only [EvidenceCapsuleEntry.toValue, canonicalize_obj] at hn ⊢
  simp [verifyCapsuleEntry, property, field_canonicalFieldsOf _ hn, h.bytes, h.digest, bind,
    Except.bind]

theorem verifyEntries_of_verified {entries : List EvidenceCapsuleEntry}
    (h : ∀ entry ∈ entries, EntryVerified C entry) :
    verifyEntries C ((entries.map EvidenceCapsuleEntry.toValue).map canonicalize) = .ok () := by
  induction entries with
  | nil => rfl
  | cons entry entries ih =>
    rw [List.map_cons, List.map_cons, verifyEntries,
      verifyCapsuleEntry_of_verified (h entry List.mem_cons_self)]
    exact ih fun e he => h e (List.mem_cons_of_mem _ he)

/-- The canonical bytes of a payload are parsed to the payload, whose entries are checked. -/
theorem parsePayload_eq {payload : EvidenceCapsulePayload}
    (header : EvidenceCapsuleProtectedHeader)
    (hb : (canonicalPayloadBytes payload).length = header.plaintextBytes)
    (hd : C.sha256Hex (canonicalPayloadBytes payload) = header.plaintextSha256)
    (hs : payload.schemaVersion = "evidence-capsule/v1") :
    EvidenceEnvelopeEncryptor.parsePayload C (canonicalPayloadBytes payload) header = (do
      verifyEntries C ((payload.entries.map EvidenceCapsuleEntry.toValue).map canonicalize)
      .ok (canonicalize payload.toValue)) := by
  obtain ⟨schemaVersion, runId, entries⟩ := payload
  subst hs
  have hplain := EvidenceCapsulePayload.plain_toValue ⟨"evidence-capsule/v1", runId, entries⟩
  have hn := hplain.1
  have hp := parseJson_canonicalBytes hplain
  rw [EvidenceEnvelopeEncryptor.parsePayload, if_neg (by simp [hb, hd]), canonicalPayloadBytes, hp]
  simp only [EvidenceCapsulePayload.toValue, canonicalize_obj, field_canonicalFieldsOf _ hn]
  simp only [JsValue.field_cons, canonicalize_arr, canonicalize_str, String.reduceEq, if_false,
    if_true]

/-- The canonical bytes of a payload with verified entries are parsed to the payload. -/
theorem parsePayload_canonicalPayloadBytes {payload : EvidenceCapsulePayload}
    (header : EvidenceCapsuleProtectedHeader)
    (hb : (canonicalPayloadBytes payload).length = header.plaintextBytes)
    (hd : C.sha256Hex (canonicalPayloadBytes payload) = header.plaintextSha256)
    (hs : payload.schemaVersion = "evidence-capsule/v1")
    (he : ∀ entry ∈ payload.entries, EntryVerified C entry) :
    EvidenceEnvelopeEncryptor.parsePayload C (canonicalPayloadBytes payload) header =
      .ok (canonicalize payload.toValue) := by
  rw [parsePayload_eq header hb hd hs, verifyEntries_of_verified he]
  rfl

end Payloads

/-! ## Ideal ciphers -/

/-- Ciphers that open what was sealed under a key or wrapped for a public key, and nothing else. No
two calls have one output. -/
structure IdealCiphers (E : KmsEnvironment) (C : CapsuleCrypto) where
  Sealed : (key nonce aad plaintext : List UInt8) → Prop
  Wrapped : (publicKeyPem : String) → (draw : ℕ) → (dek : List UInt8) → Prop
  opens : ∀ {key nonce aad plaintext}, Sealed key nonce aad plaintext →
    C.aesGcmOpen key nonce aad (C.aesGcmSeal key nonce aad plaintext).1
      (C.aesGcmSeal key nonce aad plaintext).2 = some plaintext
  sealed_of_open : ∀ {key nonce aad ciphertext tag plaintext},
    C.aesGcmOpen key nonce aad ciphertext tag = some plaintext →
      Sealed key nonce aad plaintext ∧ C.aesGcmSeal key nonce aad plaintext = (ciphertext, tag)
  key_of_seal : ∀ {key nonce aad plaintext key' nonce' aad' plaintext'},
    Sealed key nonce aad plaintext → Sealed key' nonce' aad' plaintext' →
      C.aesGcmSeal key nonce aad plaintext = C.aesGcmSeal key' nonce' aad' plaintext' → key = key'
  length_ciphertext : ∀ key nonce aad plaintext,
    (C.aesGcmSeal key nonce aad plaintext).1.length = plaintext.length
  length_tag : ∀ key nonce aad plaintext,
    (C.aesGcmSeal key nonce aad plaintext).2.length = authTagBytes
  unwraps : ∀ {n draw dek}, Wrapped (E.generateKeyPair n).publicKeyPem draw dek →
    E.privateDecrypt (E.generateKeyPair n).sealedPrivateKey
      (E.publicEncrypt (E.generateKeyPair n).publicKeyPem draw dek) = some dek
  wrapped_of_unwrap : ∀ {n text dek},
    E.privateDecrypt (E.generateKeyPair n).sealedPrivateKey text = some dek →
      ∃ draw, Wrapped (E.generateKeyPair n).publicKeyPem draw dek ∧ fromBase64 text =
        fromBase64 (E.publicEncrypt (E.generateKeyPair n).publicKeyPem draw dek)
  dek_of_wrap : ∀ {pem draw dek pem' draw' dek'}, Wrapped pem draw dek → Wrapped pem' draw' dek' →
    fromBase64 (E.publicEncrypt pem draw dek) = fromBase64 (E.publicEncrypt pem' draw' dek') →
      dek = dek'

namespace EvidenceEnvelopeEncryptor

variable {σ : Type} {K : SelfHostedKmsKeyStore σ} {V : KeyStoreView K} {E : KmsEnvironment}
  {C : CapsuleCrypto} {I : IdealCiphers E C} {s : KmsState σ} {d : EncryptDraws}
  {payload : EvidenceCapsulePayload} {profile : EvidenceEncryptionProfile}
  {context : EncryptCapsuleContext}

/-- The encryption seals and wraps under its data key, and nothing else does. -/
structure FreshDek (I : IdealCiphers E C) (s : KmsState σ) (d : EncryptDraws)
    (payload : EvidenceCapsulePayload) (profile : EvidenceEncryptionProfile)
    (context : EncryptCapsuleContext) : Prop where
  seals : ∀ nonce aad plaintext, I.Sealed d.dek nonce aad plaintext ↔
    nonce = d.nonce ∧
      aad = canonicalProtectedHeaderBytes (headerOf C d payload profile context) ∧
      plaintext = canonicalPayloadBytes payload
  wraps : ∀ pem draw, I.Wrapped pem draw d.dek ↔
    pem = profile.wrappingPublicKeyPem ∧ draw = s.draws

/-- The ciphertext and the tag of a capsule. -/
def sealOf (C : CapsuleCrypto) (d : EncryptDraws) (payload : EvidenceCapsulePayload)
    (profile : EvidenceEncryptionProfile) (context : EncryptCapsuleContext) :
    List UInt8 × List UInt8 :=
  C.aesGcmSeal d.dek d.nonce (canonicalProtectedHeaderBytes (headerOf C d payload profile context))
    (canonicalPayloadBytes payload)

/-- The capsule with a wrapped data key. -/
def capsuleOf (C : CapsuleCrypto) (d : EncryptDraws) (payload : EvidenceCapsulePayload)
    (profile : EvidenceEncryptionProfile) (context : EncryptCapsuleContext)
    (wrappedDekBase64 : String) : EncryptedCapsule :=
  let (ciphertext, authTag) := sealOf C d payload profile context
  { manifest :=
      { protectedHeader := headerOf C d payload profile context
        ciphertextSha256 := C.sha256Hex ciphertext
        ciphertextBytes := ciphertext.length
        wrappedDekBase64
        nonceBase64 := toBase64 d.nonce
        authTagBase64 := toBase64 authTag }
    ciphertext }

theorem protectedHeader_capsuleOf (wrappedDekBase64 : String) :
    (capsuleOf C d payload profile context wrappedDekBase64).manifest.protectedHeader =
      headerOf C d payload profile context := rfl

/-- The version that a data key is wrapped for. -/
structure WrapsFor (K : SelfHostedKmsKeyStore σ) (E : KmsEnvironment) (s : KmsState σ)
    (profile : EvidenceEncryptionProfile) (version : StoredKmsKeyVersion) : Prop where
  stored : K.getByKeyId s.store profile.wrappingKeyId (scopeId (profileScope profile)) =
    .ok (some version)
  active : version.status = .active
  publicKeyPem : profile.wrappingPublicKeyPem = version.publicKeyPem
  policyId : profile.policyId = E.policyId
  contentEncryptionAlgorithm : profile.contentEncryptionAlgorithm = "A256GCM"
  keyWrappingAlgorithm : profile.keyWrappingAlgorithm = "RSA-OAEP-256"

theorem wrapsFor_of_wrapDek {dek : List UInt8} {wrapped : String} {s' : KmsState σ}
    (h : SelfHostedKms.wrapDek K E s profile dek = (.ok wrapped, s')) :
    ∃ version, WrapsFor K E s profile version ∧
      wrapped = E.publicEncrypt profile.wrappingPublicKeyPem s.draws dek := by
  unfold SelfHostedKms.wrapDek at h
  split at h
  · cases h
  · split at h
    · cases h
    · cases h
    · next version hg =>
      split at h
      · cases h
      · next ha =>
        simp only at h
        split at h
        · cases h
        · next hp =>
          cases h
          simp only [Bool.not_eq_true', Bool.not_eq_false, profileMatches, Bool.and_eq_true,
            decide_eq_true_eq] at hp
          obtain ⟨⟨⟨⟨⟨-, hpolicy⟩, -⟩, hpem⟩, hcipher⟩, hwrap⟩ := hp
          refine ⟨version, ⟨hg, not_not.mp ha, hpem.symm, hpolicy.symm, hcipher.symm,
            hwrap.symm⟩, ?_⟩
          rw [← hpem]
          rfl

theorem encrypt_ok {capsule : EncryptedCapsule} {audit : Option EvidenceAuditEvent}
    {s' : KmsState σ}
    (h : encrypt K E C s d payload profile context = ((.ok capsule, audit), s')) :
    s' = s.step K E (.wrapDek profile d.dek) ∧ ∃ version, WrapsFor K E s profile version ∧
      capsule = capsuleOf C d payload profile context
        (E.publicEncrypt profile.wrappingPublicKeyPem s.draws d.dek) := by
  unfold encrypt at h
  simp only at h
  split at h
  · cases h
  · split at h
    · cases h
    · next wrapped s₁ hw =>
      cases h
      obtain ⟨version, hv, rfl⟩ := wrapsFor_of_wrapDek hw
      exact ⟨by rw [KmsState.step, hw], version, hv, rfl⟩

/-! ### Opening -/

/-- The scope in which a context asks for the data key. -/
def contextScope (context : EvidenceDecryptionContext) : EvidenceKeyScope :=
  ⟨context.tenantId, context.caseId, context.region, context.purpose⟩

/-- A matching context before the expiry, after operations that left the capsule and the scope of
its key unrevoked. -/
structure Opening (K : SelfHostedKmsKeyStore σ) (E : KmsEnvironment) (s : KmsState σ)
    (header : EvidenceCapsuleProtectedHeader) (ops : List KmsOp) (d : CallDraws)
    (context : EvidenceDecryptionContext) : Prop where
  available : (s.runs K E ops).available = true
  capsule : K.isCapsuleRevoked (s.runs K E ops).store (scopeId (contextScope context))
    header.capsuleId = .ok false
  scope : ∀ scope, .revokeScope scope ∈ ops → scopeId (contextScope context) ≠ scopeId scope
  matching : scopeMismatch header context = none
  unexpired : utf16Le header.expiresAt (context.now.getD d.now) = false

theorem eq_of_scopeMismatch {header : EvidenceCapsuleProtectedHeader}
    {context : EvidenceDecryptionContext} (h : scopeMismatch header context = none) :
    header.tenantId = context.tenantId ∧ header.caseId = context.caseId ∧
      header.region = context.region ∧ header.purpose = context.purpose := by
  unfold scopeMismatch at h
  repeat' split at h
  all_goals simp_all

/-- The version that a data key was wrapped for unwraps it, until its scope is revoked. -/
theorem unwrapDek_of_wrapped (hd : V.Drawn E s) {version : StoredKmsKeyVersion}
    (hv : version ∈ V.versions s.store) (ha : version.status = .active)
    (manifest : RemoteEvidenceCapsuleManifest) {scope : EvidenceKeyScope}
    (hs : version.scopeId = scopeId scope)
    (hk : version.keyId = manifest.protectedHeader.wrappingKeyId)
    (hav : s.available = true)
    (hr : K.isCapsuleRevoked s.store (scopeId scope) manifest.protectedHeader.capsuleId = .ok false)
    (hp : manifest.protectedHeader.policyId = E.policyId) {dek : List UInt8}
    (hu : E.privateDecrypt version.sealedPrivateKey manifest.wrappedDekBase64 = some dek) :
    SelfHostedKms.unwrapDek K E s manifest scope = .ok dek := by
  obtain ⟨w, hw⟩ := V.get_of_mem hd.sound hv fun u hu he => by
    rw [hd.eq_of_keyId hu hv he]
  obtain ⟨hwm, hwk, hws⟩ := V.mem_of_get hw
  have he := hd.eq_of_keyId hwm hv hwk
  subst he
  rw [hs, hk] at hw
  simp [SelfHostedKms.unwrapDek, hav, hr, hp, hw, hs, ha, hu]

theorem boundManifest_capsuleOf {version : StoredKmsKeyVersion} (wrapped : String)
    (d : EncryptDraws) (context : EncryptCapsuleContext) (I : IdealCiphers E C)
    (hv : WrapsFor K E s profile version)
    (hl : (canonicalPayloadBytes payload).length ≤ maxManifestCiphertextBytes) :
    boundManifest C (capsuleOf C d payload profile context wrapped).manifest
      (capsuleOf C d payload profile context wrapped).ciphertext = .ok () := by
  have hlen := I.length_ciphertext d.dek d.nonce
    (canonicalProtectedHeaderBytes (headerOf C d payload profile context))
    (canonicalPayloadBytes payload)
  have hc : (headerOf C d payload profile context).contentEncryptionAlgorithm = "A256GCM" :=
    hv.contentEncryptionAlgorithm
  have hw : (headerOf C d payload profile context).keyWrappingAlgorithm = "RSA-OAEP-256" :=
    hv.keyWrappingAlgorithm
  simp [boundManifest, capsuleOf, sealOf, hlen, hl, hc, hw]

/-- What was sealed is opened and parsed. -/
theorem openPayload_of_sealed (wrapped : String) (hsealed : I.Sealed d.dek d.nonce
      (canonicalProtectedHeaderBytes (headerOf C d payload profile context))
      (canonicalPayloadBytes payload)) :
    openPayload C d.dek (capsuleOf C d payload profile context wrapped) =
      parsePayload C (canonicalPayloadBytes payload)
        (headerOf C d payload profile context) := by
  have hlen := I.length_tag d.dek d.nonce
    (canonicalProtectedHeaderBytes (headerOf C d payload profile context))
    (canonicalPayloadBytes payload)
  have hopen := I.opens hsealed
  have hn : d.nonce ≠ [] := by
    intro hn
    have hl := d.nonce_length
    simp [hn, nonceBytes] at hl
  simp [openPayload, capsuleOf, sealOf, hlen, d.dek_length, hn, hopen]

theorem openPayload_capsuleOf (wrapped : String) (hf : FreshDek I s d payload profile context)
    (hs : payload.schemaVersion = "evidence-capsule/v1")
    (he : ∀ entry ∈ payload.entries, EntryVerified C entry) :
    openPayload C d.dek (capsuleOf C d payload profile context wrapped) =
      .ok (canonicalize payload.toValue) := by
  rw [openPayload_of_sealed wrapped ((hf.seals _ _ _).mpr ⟨rfl, rfl, rfl⟩)]
  exact parsePayload_canonicalPayloadBytes _ rfl rfl hs he

/-- A capsule whose payload is refused is not opened. -/
theorem decrypt_of_refused {d : CallDraws} {encrypted : EncryptedCapsule}
    {context : EvidenceDecryptionContext} {dek : List UInt8} {error : EvidenceCapsuleError}
    (hb : boundManifest C encrypted.manifest encrypted.ciphertext = .ok ())
    (ha : assertScope encrypted.manifest context (context.now.getD d.now) = .ok ())
    (hu : SelfHostedKms.unwrapDek K E s encrypted.manifest (contextScope context) = .ok dek)
    (hp : openPayload C dek encrypted = .error (.capsule error)) :
    (decrypt K E C s d encrypted context).1 = .error (.capsule error) := by
  simp only [contextScope] at hu
  simp only [decrypt, hb, ha, bind, Except.bind, hu, hp]

/-- A sealed capsule is opened to its payload. -/
theorem decrypt_capsuleOf (hE : E.Ideal) (hd : V.Drawn E s) {version : StoredKmsKeyVersion}
    (hv : WrapsFor K E s profile version) (hf : FreshDek I s d payload profile context)
    (hs : payload.schemaVersion = "evidence-capsule/v1")
    (he : ∀ entry ∈ payload.entries, EntryVerified C entry)
    (hl : (canonicalPayloadBytes payload).length ≤ maxManifestCiphertextBytes)
    {ops : List KmsOp} {d' : CallDraws} {context' : EvidenceDecryptionContext}
    (ho : Opening K E (s.step K E (.wrapDek profile d.dek)) (headerOf C d payload profile context)
      ops d' context') :
    ∃ audit, decrypt K E C ((s.step K E (.wrapDek profile d.dek)).runs K E ops) d'
      (capsuleOf C d payload profile context
        (E.publicEncrypt profile.wrappingPublicKeyPem s.draws d.dek)) context' =
      (.ok (canonicalize payload.toValue), audit) := by
  obtain ⟨htenant, hcase, hregion, hpurpose⟩ := eq_of_scopeMismatch ho.matching
  have hscope : profileScope profile = contextScope context' := by
    simp only [profileScope, contextScope, ← htenant, ← hcase, ← hregion, ← hpurpose]
    rfl
  obtain ⟨hvm, hvk, hvs⟩ := V.mem_of_get hv.stored
  have hd₁ : V.Drawn E (s.step K E (.wrapDek profile d.dek)) :=
    hd.runs hE [.wrapDek profile d.dek]
  have hvm₁ : version ∈ V.versions (s.step K E (.wrapDek profile d.dek)).store := by
    rw [KmsState.step]
    rcases KeyStoreView.snd_wrapDek (K := K) (E := E) s profile d.dek with h | h <;> rwa [h]
  obtain ⟨v', hm', hkept, ha'⟩ := V.active_runs (E := E) ops hd₁.sound hvm₁ hv.active
    fun scope hm => by
      rw [hvs, hscope]
      exact ho.scope scope hm
  obtain ⟨n, -, -, hpem, hsealed⟩ := hd.drawn version hvm
  have hunwrap : E.privateDecrypt v'.sealedPrivateKey
      (E.publicEncrypt profile.wrappingPublicKeyPem s.draws d.dek) = some d.dek := by
    rw [hkept.sealedPrivateKey, hv.publicKeyPem, hsealed, hpem]
    apply I.unwraps
    rw [← hpem, ← hv.publicKeyPem]
    exact (hf.wraps _ _).mpr ⟨rfl, rfl⟩
  have hid : v'.scopeId = scopeId (contextScope context') := by
    rw [hkept.scopeId, hvs, hscope]
  have hu := unwrapDek_of_wrapped (hd₁.runs hE ops) hm' ha'
    (capsuleOf C d payload profile context
      (E.publicEncrypt profile.wrappingPublicKeyPem s.draws d.dek)).manifest
    hid (hkept.keyId.trans hvk) ho.available ho.capsule hv.policyId hunwrap
  have hb := boundManifest_capsuleOf
    (E.publicEncrypt profile.wrappingPublicKeyPem s.draws d.dek) d context I hv hl
  have hp := openPayload_capsuleOf
    (E.publicEncrypt profile.wrappingPublicKeyPem s.draws d.dek) hf hs he
  have ha : assertScope (capsuleOf C d payload profile context
      (E.publicEncrypt profile.wrappingPublicKeyPem s.draws d.dek)).manifest context'
      (context'.now.getD d'.now) = .ok () := by
    have hm := ho.matching
    have hx := ho.unexpired
    simp only [assertScope, capsuleOf, hm, hx]
    rfl
  simp only [contextScope] at hu
  simp only [decrypt, hb, ha, bind, Except.bind, hu, hp]
  exact ⟨_, rfl⟩

/-! ### Binding -/

/-- What a decryption has checked when it answers. -/
theorem decrypt_ok {d : CallDraws} {encrypted : EncryptedCapsule}
    {context : EvidenceDecryptionContext} {value : JsValue} {audit : Option EvidenceAuditEvent}
    (h : decrypt K E C s d encrypted context = (.ok value, audit)) :
    boundManifest C encrypted.manifest encrypted.ciphertext = .ok () ∧
      ∃ dek, SelfHostedKms.unwrapDek K E s encrypted.manifest (contextScope context) = .ok dek ∧
        openPayload C dek encrypted = .ok value := by
  unfold decrypt at h
  simp only at h
  split at h
  · cases h
  · next hb =>
    have hbound : boundManifest C encrypted.manifest encrypted.ciphertext = .ok () := by
      cases hm : boundManifest C encrypted.manifest encrypted.ciphertext with
      | error error => simp [hm, bind, Except.bind] at hb
      | ok u => rfl
    refine ⟨hbound, ?_⟩
    split at h
    · cases h
    · next dek hu =>
      split at h
      · cases h
      · cases h
      · next value' hp =>
        cases h
        exact ⟨dek, hu, hp⟩

theorem unwrapDek_ok {manifest : RemoteEvidenceCapsuleManifest} {scope : EvidenceKeyScope}
    {dek : List UInt8} (h : SelfHostedKms.unwrapDek K E s manifest scope = .ok dek) :
    ∃ version, K.getByKeyId s.store manifest.protectedHeader.wrappingKeyId (scopeId scope) =
        .ok (some version) ∧
      E.privateDecrypt version.sealedPrivateKey manifest.wrappedDekBase64 = some dek := by
  unfold SelfHostedKms.unwrapDek at h
  simp only at h
  repeat' split at h
  all_goals cases h
  exact ⟨_, ‹_›, ‹_›⟩

theorem openPayload_ok {dek : List UInt8} {encrypted : EncryptedCapsule} {value : JsValue}
    (h : openPayload C dek encrypted = .ok value) :
    ∃ plaintext, C.aesGcmOpen dek (fromBase64 encrypted.manifest.nonceBase64)
      (canonicalProtectedHeaderBytes encrypted.manifest.protectedHeader) encrypted.ciphertext
      (fromBase64 encrypted.manifest.authTagBase64) = some plaintext := by
  unfold openPayload at h
  simp only at h
  repeat' split at h
  all_goals first
    | exact ⟨_, ‹_›⟩
    | cases h

theorem boundManifest_ok {manifest : RemoteEvidenceCapsuleManifest} {ciphertext : List UInt8}
    (h : boundManifest C manifest ciphertext = .ok ()) :
    manifest.ciphertextBytes = ciphertext.length ∧
      manifest.ciphertextSha256 = C.sha256Hex ciphertext := by
  unfold boundManifest at h
  simp only at h
  repeat' split at h
  all_goals simp_all

/-- Two capsules are the same but for the base64 texts of their bytes. -/
structure SameBytes (capsule other : EncryptedCapsule) : Prop where
  protectedHeader : other.manifest.protectedHeader = capsule.manifest.protectedHeader
  ciphertext : other.ciphertext = capsule.ciphertext
  ciphertextBytes : other.manifest.ciphertextBytes = capsule.manifest.ciphertextBytes
  ciphertextSha256 : other.manifest.ciphertextSha256 = capsule.manifest.ciphertextSha256
  wrappedDek : fromBase64 other.manifest.wrappedDekBase64 =
    fromBase64 capsule.manifest.wrappedDekBase64
  nonce : fromBase64 other.manifest.nonceBase64 = fromBase64 capsule.manifest.nonceBase64
  authTag : fromBase64 other.manifest.authTagBase64 = fromBase64 capsule.manifest.authTagBase64

/-- A capsule keeps the wrapped key of another, or its ciphertext and its tag. -/
def Keeps (capsule other : EncryptedCapsule) : Prop :=
  fromBase64 other.manifest.wrappedDekBase64 = fromBase64 capsule.manifest.wrappedDekBase64 ∨
    other.ciphertext = capsule.ciphertext ∧
      fromBase64 other.manifest.authTagBase64 = fromBase64 capsule.manifest.authTagBase64

/-- A capsule that keeps a part of a sealed one and is opened is the sealed one. -/
theorem sameBytes_of_decrypt (I : IdealCiphers E C) {s' : KmsState σ} (hd : V.Drawn E s')
    (hf : FreshDek I s d payload profile context) {d' : CallDraws} {other : EncryptedCapsule}
    {context' : EvidenceDecryptionContext} {value : JsValue} {audit : Option EvidenceAuditEvent}
    (h : decrypt K E C s' d' other context' = (.ok value, audit))
    (hk : Keeps (capsuleOf C d payload profile context
      (E.publicEncrypt profile.wrappingPublicKeyPem s.draws d.dek)) other) :
    SameBytes (capsuleOf C d payload profile context
      (E.publicEncrypt profile.wrappingPublicKeyPem s.draws d.dek)) other := by
  obtain ⟨hb, dek, hu, hp⟩ := decrypt_ok h
  obtain ⟨hbytes, hsha⟩ := boundManifest_ok hb
  obtain ⟨version, hg, hu⟩ := unwrapDek_ok hu
  obtain ⟨n, -, -, -, hn⟩ := hd.drawn version (V.mem_of_get hg).1
  rw [hn] at hu
  obtain ⟨draw, hwrapped, hw⟩ := I.wrapped_of_unwrap hu
  obtain ⟨plaintext, hopen⟩ := openPayload_ok hp
  obtain ⟨hsealed, hseal⟩ := I.sealed_of_open hopen
  have hown := (hf.seals _ _ _).mpr ⟨rfl, rfl, rfl⟩
  have hdek : dek = d.dek := by
    rcases hk with hk | ⟨hc, ht⟩
    · exact I.dek_of_wrap hwrapped ((hf.wraps _ _).mpr ⟨rfl, rfl⟩) (hw.symm.trans hk)
    · refine I.key_of_seal hsealed hown (hseal.trans ?_)
      rw [hc, ht]
      simp [capsuleOf, sealOf]
  rw [hdek] at hsealed hseal hwrapped hw
  obtain ⟨hnonce, haad, rfl⟩ := (hf.seals _ _ _).mp hsealed
  obtain ⟨hpem, rfl⟩ := (hf.wraps _ _).mp hwrapped
  rw [hnonce, haad] at hseal
  have hcipher : other.ciphertext = (sealOf C d payload profile context).1 := by
    rw [sealOf, hseal]
  refine ⟨canonicalProtectedHeaderBytes_injective haad, hcipher, ?_, ?_, ?_, ?_, ?_⟩
  · rw [hbytes, hcipher]
    rfl
  · rw [hsha, hcipher]
    rfl
  · rw [hw, hpem]
    rfl
  · rw [hnonce]
    simp [capsuleOf]
  · have ht : fromBase64 other.manifest.authTagBase64 = (sealOf C d payload profile context).2 := by
      rw [sealOf, hseal]
    rw [ht]
    simp [capsuleOf]

/-- Encrypted capsules are opened to their payloads, whatever keys are rotated after, and are bound:
nothing that keeps a part of one is opened but itself. -/
theorem capsules_open_and_bind (V : KeyStoreView K) (hE : E.Ideal) (I : IdealCiphers E C)
    (ops : List KmsOp) (d : EncryptDraws) (payload : EvidenceCapsulePayload)
    (profile : EvidenceEncryptionProfile) (context : EncryptCapsuleContext)
    (capsule : EncryptedCapsule) (audit : Option EvidenceAuditEvent) (s : KmsState σ)
    (h : encrypt K E C (.after K E ops) d payload profile context = ((.ok capsule, audit), s))
    (hf : FreshDek I (.after K E ops) d payload profile context) :
    (payload.schemaVersion = "evidence-capsule/v1" →
      (∀ entry ∈ payload.entries, EntryVerified C entry) →
      (canonicalPayloadBytes payload).length ≤ maxManifestCiphertextBytes →
      ∀ ops' d' context', Opening K E s capsule.manifest.protectedHeader ops' d' context' →
        ∃ value audit', decrypt K E C (s.runs K E ops') d' capsule context' = (.ok value, audit') ∧
          EvidenceCapsulePayload.ofValue value = some payload) ∧
    ∀ ops' d' other context' value audit',
      decrypt K E C (s.runs K E ops') d' other context' = (.ok value, audit') →
        Keeps capsule other → SameBytes capsule other := by
  obtain ⟨rfl, version, hv, rfl⟩ := encrypt_ok h
  have hd := V.drawn_after hE ops
  constructor
  · intro hs he hl ops' d' context' ho
    obtain ⟨audit', hdec⟩ := decrypt_capsuleOf hE hd hv hf hs he hl ho
    exact ⟨_, audit', hdec, payload.ofValue_canonicalize⟩
  · intro ops' d' other context' value audit' hdec hk
    have hd' := (hd.runs hE [.wrapDek profile d.dek]).runs hE ops'
    exact sameBytes_of_decrypt I hd' hf hdec hk

/-! ### A log of ciphers -/

/-- The calls of the ciphers. A sealing has its number for its tag, and a wrapping is its number. -/
structure CipherLog where
  seals : List (List UInt8 × List UInt8 × List UInt8 × List UInt8)
  wraps : List (String × ℕ × List UInt8)
  length_seals : seals.length < 256
  length_wraps : wraps.length < 256
  nodup_wraps : wraps.Nodup

namespace CipherLog

variable (L : CipherLog)

/-- A short digest. -/
def digest (bytes : List UInt8) : String :=
  toString (bytes.foldl (fun h b => (h * 257 + b.toNat + 1) % 2 ^ 64) 0)

def crypto : CapsuleCrypto where
  sha256Hex := digest
  aesGcmSeal key nonce aad plaintext :=
    (plaintext, List.replicate 15 0 ++ [UInt8.ofNat (L.seals.idxOf (key, nonce, aad, plaintext))])
  aesGcmOpen key nonce aad ciphertext tag :=
    if (key, nonce, aad, ciphertext) ∈ L.seals ∧ tag = List.replicate 15 0 ++
      [UInt8.ofNat (L.seals.idxOf (key, nonce, aad, ciphertext))] then some ciphertext else none

def environment : KmsEnvironment :=
  { countingEnvironment with
    publicEncrypt := fun pem draw dek => toBase64 [UInt8.ofNat (L.wraps.idxOf (pem, draw, dek))]
    privateDecrypt := fun key text =>
      match fromBase64 text with
      | [b] => (L.wraps[b.toNat]?).bind fun w => if w.1 = key.ciphertext then some w.2.2 else none
      | _ => none }

variable {L}

theorem ofNat_idxOf {α : Type} [BEq α] [LawfulBEq α] {xs : List α} (h : xs.length < 256) (x : α) :
    (UInt8.ofNat (xs.idxOf x)).toNat = xs.idxOf x := by
  have hl := List.idxOf_le_length (a := x) (l := xs)
  simp only [UInt8.toNat_ofNat', Nat.reducePow]
  omega

/-- What is unwrapped was wrapped, under the key that unwraps it. -/
theorem wrapped_of_privateDecrypt {key : SealedKey} {text : String} {dek : List UInt8}
    (h : L.environment.privateDecrypt key text = some dek) :
    ∃ draw, (key.ciphertext, draw, dek) ∈ L.wraps ∧
      fromBase64 text = [UInt8.ofNat (L.wraps.idxOf (key.ciphertext, draw, dek))] := by
  simp only [environment] at h
  split at h
  · next b hb =>
    obtain ⟨⟨pem, draw, dek'⟩, hw, hk⟩ := Option.bind_eq_some_iff.mp h
    obtain ⟨hlt, hget⟩ := List.getElem?_eq_some_iff.mp hw
    split at hk
    · next he =>
      cases hk
      cases he
      refine ⟨draw, hget ▸ List.getElem_mem hlt, ?_⟩
      rw [hb, ← hget, L.nodup_wraps.idxOf_getElem b.toNat hlt, UInt8.ofNat_toNat]
    · cases hk
  · cases h

theorem privateDecrypt_of_wrapped {key : SealedKey} {draw : ℕ} {dek : List UInt8}
    (h : (key.ciphertext, draw, dek) ∈ L.wraps) :
    L.environment.privateDecrypt key (L.environment.publicEncrypt key.ciphertext draw dek) =
      some dek := by
  simp [environment, ofNat_idxOf L.length_wraps, List.getElem?_idxOf h]

theorem ideal_environment : L.environment.Ideal where
  keyId_injective := countingEnvironment_ideal.keyId_injective
  keyId_valid := countingEnvironment_ideal.keyId_valid
  decrypt_only m m' draw dek dek' h := by
    obtain ⟨draw', hw, hb⟩ := wrapped_of_privateDecrypt h
    simp only [environment, fromBase64_toBase64, List.cons.injEq, and_true] at hb
    have hi := congrArg UInt8.toNat hb
    rw [ofNat_idxOf L.length_wraps, ofNat_idxOf L.length_wraps] at hi
    have he := congrArg Prod.fst ((List.idxOf_inj hw).mp hi.symm)
    exact countingEnvironment_ideal.keyId_injective he

theorem key_of_tag {key nonce aad plaintext key' nonce' aad' plaintext' : List UInt8}
    (h : (key, nonce, aad, plaintext) ∈ L.seals)
    (he : (L.crypto.aesGcmSeal key nonce aad plaintext).2 =
      (L.crypto.aesGcmSeal key' nonce' aad' plaintext').2) : key = key' := by
  simp only [crypto, List.append_cancel_left_eq, List.cons.injEq, and_true] at he
  have hi := congrArg UInt8.toNat he
  rw [ofNat_idxOf L.length_seals, ofNat_idxOf L.length_seals] at hi
  exact congrArg Prod.fst ((List.idxOf_inj h).mp hi)

def idealCiphers (L : CipherLog) : IdealCiphers L.environment L.crypto where
  Sealed key nonce aad plaintext := (key, nonce, aad, plaintext) ∈ L.seals
  Wrapped pem draw dek := (pem, draw, dek) ∈ L.wraps
  opens h := by simp [crypto, h]
  sealed_of_open := by
    intro key nonce aad ciphertext tag plaintext h
    simp only [crypto] at h
    split at h
    · next hc =>
      cases h
      exact ⟨hc.1, by rw [hc.2]; rfl⟩
    · cases h
  key_of_seal := by
    intro key nonce aad plaintext key' nonce' aad' plaintext' h h' he
    exact key_of_tag h (congrArg Prod.snd he)
  length_ciphertext _ _ _ _ := rfl
  length_tag _ _ _ _ := rfl
  unwraps := by
    intro n draw dek h
    have hk : (L.environment.generateKeyPair n).sealedPrivateKey.ciphertext =
        (L.environment.generateKeyPair n).publicKeyPem := rfl
    rw [← hk] at h ⊢
    exact privateDecrypt_of_wrapped h
  wrapped_of_unwrap := by
    intro n text dek h
    obtain ⟨draw, hw, hb⟩ := wrapped_of_privateDecrypt h
    exact ⟨draw, hw, by rw [hb]; exact (fromBase64_toBase64 _).symm⟩
  dek_of_wrap := by
    intro pem draw dek pem' draw' dek' h h' he
    simp only [environment, fromBase64_toBase64, List.cons.injEq, and_true] at he
    have hi := congrArg UInt8.toNat he
    rw [ofNat_idxOf L.length_wraps, ofNat_idxOf L.length_wraps] at hi
    exact congrArg (fun w => w.2.2) ((List.idxOf_inj h).mp hi)

end CipherLog

theorem encrypt_of_wrapDek (C : CapsuleCrypto) (payload : EvidenceCapsulePayload)
    {wrapped : String} {s' : KmsState σ}
    (hx : utf16Le profile.expiresAt (context.createdAt.getD d.now) = false)
    (hw : SelfHostedKms.wrapDek K E s profile d.dek = (.ok wrapped, s')) :
    ∃ audit, encrypt K E C s d payload profile context =
      ((.ok (capsuleOf C d payload profile context wrapped), audit), s') := by
  simp only [encrypt, hx, hw]
  exact ⟨_, rfl⟩

/-! ### A capsule that is opened and one that is not -/

def sampleScope : EvidenceKeyScope := ⟨"t", "c", "r", "p"⟩

def sampleProfile : EvidenceEncryptionProfile :=
  SelfHostedKms.buildProfile countingEnvironment 0 sampleScope
    (SelfHostedKms.keyVersion countingEnvironment 0 (scopeId sampleScope) 1)

def sampleActor : EvidenceActor := ⟨"user", "u", "x"⟩

def sampleContext : EncryptCapsuleContext := ⟨sampleActor, none, none⟩

def sampleDraws (capsuleId : String) (byte : UInt8) : EncryptDraws where
  auditId := "a"
  now := "1970-01-01T00:00:00.000Z"
  occurredAt := "1970-01-01T00:00:00.000Z"
  dek := List.replicate 32 byte
  nonce := List.replicate 12 byte
  capsuleId := capsuleId
  dek_length := rfl
  nonce_length := rfl

def sampleDecryption : EvidenceDecryptionContext :=
  ⟨sampleActor, "t", "c", "worker", "r", "p", "policy", none⟩

/-- A payload with an entry of one byte, and one whose entry declares a byte that it has not. -/
def samplePayload : EvidenceCapsulePayload :=
  ⟨"evidence-capsule/v1", "run",
    [⟨"e", "trace", "text/plain", CipherLog.digest [1], 1, toBase64 [1]⟩]⟩

def misdeclaredPayload : EvidenceCapsulePayload :=
  ⟨"evidence-capsule/v1", "run", [⟨"e", "trace", "text/plain", CipherLog.digest [], 1, ""⟩]⟩

/-- The header does not depend on the ciphers. -/
def sampleSeal (d : EncryptDraws) (payload : EvidenceCapsulePayload) :
    List UInt8 × List UInt8 × List UInt8 × List UInt8 :=
  let C : CapsuleCrypto := ⟨CipherLog.digest, fun _ _ _ _ => ([], []), fun _ _ _ _ _ => none⟩
  (d.dek, d.nonce,
    canonicalProtectedHeaderBytes (headerOf C d payload sampleProfile sampleContext),
    canonicalPayloadBytes payload)

def sampleLog : CipherLog where
  seals := [sampleSeal (sampleDraws "first" 1) misdeclaredPayload,
    sampleSeal (sampleDraws "second" 2) samplePayload]
  wraps := [("", 1, List.replicate 32 1), ("", 2, List.replicate 32 2)]
  length_seals := by decide
  length_wraps := by decide
  nodup_wraps := by decide

/-- The capsules are sealed one after the other. -/
def sampleOps : List KmsOp :=
  [.encryptionProfile sampleScope, .wrapDek sampleProfile (sampleDraws "first" 1).dek]

theorem fresh_second : FreshDek sampleLog.idealCiphers
    (.after inMemory sampleLog.environment sampleOps) (sampleDraws "second" 2) samplePayload
    sampleProfile sampleContext where
  seals nonce aad plaintext := by
    have hne : (sampleDraws "second" 2).dek ≠ (sampleDraws "first" 1).dek := by decide
    simp only [CipherLog.idealCiphers, sampleLog, sampleSeal, List.mem_cons, Prod.mk.injEq, hne,
      false_and, true_and, List.not_mem_nil, or_false, false_or]
    rfl
  wraps pem draw := by
    have hne : (sampleDraws "second" 2).dek ≠ List.replicate 32 1 := by decide
    simp only [CipherLog.idealCiphers, sampleLog, List.mem_cons, Prod.mk.injEq, hne, and_false,
      List.not_mem_nil, or_false, false_or]
    constructor
    · rintro ⟨rfl, rfl, -⟩
      exact ⟨by decide, by decide⟩
    · rintro ⟨rfl, rfl⟩
      exact ⟨by decide, by decide, rfl⟩

theorem wrapDek_second : ∃ s', SelfHostedKms.wrapDek inMemory sampleLog.environment
    (.after inMemory sampleLog.environment sampleOps) sampleProfile (sampleDraws "second" 2).dek =
      (.ok (toBase64 [1]), s') := by
  refine ⟨_, Prod.ext ?_ rfl⟩
  decide

theorem verified_samplePayload : ∀ entry ∈ samplePayload.entries,
    EntryVerified sampleLog.crypto entry := by
  intro entry he
  rw [List.mem_singleton.mp he]
  exact ⟨by simp, by simp [CipherLog.crypto]⟩

theorem length_samplePayload :
    (canonicalPayloadBytes samplePayload).length ≤ maxManifestCiphertextBytes := by
  decide +kernel

theorem opening_second : Opening inMemory sampleLog.environment
    ((KmsState.after inMemory sampleLog.environment sampleOps).step inMemory sampleLog.environment
      (.wrapDek sampleProfile (sampleDraws "second" 2).dek))
    (headerOf sampleLog.crypto (sampleDraws "second" 2) samplePayload sampleProfile sampleContext)
    [.rotate sampleScope] (sampleDraws "" 0).toCallDraws sampleDecryption where
  available := by decide
  capsule := by decide
  scope scope hm := by simp at hm
  matching := by decide
  unexpired := by decide

/-- The second capsule is opened after a rotation, and nothing that keeps a part of it but
itself. -/
theorem second_capsule_opens_and_binds :
    ∃ capsule audit s, encrypt inMemory sampleLog.environment sampleLog.crypto
        (.after inMemory sampleLog.environment sampleOps) (sampleDraws "second" 2) samplePayload
        sampleProfile sampleContext = ((.ok capsule, audit), s) ∧
      (∃ value audit', decrypt inMemory sampleLog.environment sampleLog.crypto
        (s.runs inMemory sampleLog.environment [.rotate sampleScope])
        (sampleDraws "" 0).toCallDraws capsule sampleDecryption = (.ok value, audit') ∧
          EvidenceCapsulePayload.ofValue value = some samplePayload) ∧
      ∀ other value audit', decrypt inMemory sampleLog.environment sampleLog.crypto
        (s.runs inMemory sampleLog.environment [.rotate sampleScope])
        (sampleDraws "" 0).toCallDraws other sampleDecryption = (.ok value, audit') →
          Keeps capsule other → SameBytes capsule other := by
  have hx : utf16Le sampleProfile.expiresAt
      (sampleContext.createdAt.getD (sampleDraws "second" 2).now) = false := by decide
  obtain ⟨s, hw⟩ := wrapDek_second
  obtain ⟨audit, he⟩ := encrypt_of_wrapDek sampleLog.crypto samplePayload hx hw
  have hs := (encrypt_ok he).1
  obtain ⟨hopen, hbind⟩ := capsules_open_and_bind inMemoryView CipherLog.ideal_environment
    sampleLog.idealCiphers sampleOps _ _ _ _ _ _ _ he fresh_second
  subst hs
  rw [protectedHeader_capsuleOf] at hopen
  have hvalue := hopen rfl verified_samplePayload length_samplePayload _ _ _ opening_second
  refine ⟨_, _, _, he, hvalue, ?_⟩
  intro other value audit'
  exact hbind [.rotate sampleScope] (sampleDraws "" 0).toCallDraws other sampleDecryption value
    audit'

/-- A ciphertext over the bound is not opened. -/
theorem decrypt_of_large (d : CallDraws) {encrypted : EncryptedCapsule}
    (context : EvidenceDecryptionContext)
    (h : maxManifestCiphertextBytes < encrypted.ciphertext.length) :
    ∃ error, (decrypt K E C s d encrypted context).1 = .error error := by
  cases hd : decrypt K E C s d encrypted context with
  | mk result audit =>
    cases result with
    | error error => exact ⟨error, rfl⟩
    | ok value =>
      have hb := (decrypt_ok hd).1
      have hl := (boundManifest_ok hb).1
      rw [boundManifest, if_neg (not_not.mpr hl), if_pos (hl ▸ h)] at hb
      cases hb

/-- The payload with the entry that has not the byte it declares. -/
theorem openPayload_misdeclared (wrapped : String) :
    openPayload sampleLog.crypto (sampleDraws "first" 1).dek
      (capsuleOf sampleLog.crypto (sampleDraws "first" 1) misdeclaredPayload sampleProfile
        sampleContext wrapped) =
      .error (integrityViolation "Entry e size 0 does not match declared 1.") := by
  have hsealed : sampleLog.idealCiphers.Sealed (sampleDraws "first" 1).dek
      (sampleDraws "first" 1).nonce
      (canonicalProtectedHeaderBytes (headerOf sampleLog.crypto (sampleDraws "first" 1)
        misdeclaredPayload sampleProfile sampleContext))
      (canonicalPayloadBytes misdeclaredPayload) := List.mem_cons_self
  rw [openPayload_of_sealed wrapped hsealed, parsePayload_eq _ rfl rfl rfl]
  rfl

/-- A capsule is sealed and is not opened, as its entry has not the bytes it declares; nor is one
that is too large. Another capsule, with another header, wrapped key, nonce, ciphertext and tag, is
opened in its place. -/
theorem sealed_capsule_is_refused_and_replaced :
    ∃ first second a₁ a₂ s₁ s₂,
      encrypt inMemory sampleLog.environment sampleLog.crypto
        (.after inMemory sampleLog.environment [.encryptionProfile sampleScope])
        (sampleDraws "first" 1) misdeclaredPayload sampleProfile sampleContext =
          ((.ok first, a₁), s₁) ∧
      Opening inMemory sampleLog.environment s₁ first.manifest.protectedHeader []
        (sampleDraws "" 0).toCallDraws sampleDecryption ∧
      (decrypt inMemory sampleLog.environment sampleLog.crypto s₁ (sampleDraws "" 0).toCallDraws
        first sampleDecryption).1 =
          .error (integrityViolation "Entry e size 0 does not match declared 1.") ∧
      (∀ s d encrypted context, maxManifestCiphertextBytes < encrypted.ciphertext.length →
        ∃ error, (decrypt inMemory sampleLog.environment sampleLog.crypto s d encrypted
          context).1 = .error error) ∧
      encrypt inMemory sampleLog.environment sampleLog.crypto s₁ (sampleDraws "second" 2)
        samplePayload sampleProfile sampleContext = ((.ok second, a₂), s₂) ∧
      second.manifest.protectedHeader ≠ first.manifest.protectedHeader ∧
      fromBase64 second.manifest.wrappedDekBase64 ≠ fromBase64 first.manifest.wrappedDekBase64 ∧
      fromBase64 second.manifest.nonceBase64 ≠ fromBase64 first.manifest.nonceBase64 ∧
      second.ciphertext ≠ first.ciphertext ∧
      fromBase64 second.manifest.authTagBase64 ≠ fromBase64 first.manifest.authTagBase64 ∧
      ∃ value audit, decrypt inMemory sampleLog.environment sampleLog.crypto
        (s₂.runs inMemory sampleLog.environment [.rotate sampleScope])
        (sampleDraws "" 0).toCallDraws second sampleDecryption = (.ok value, audit) := by
  have hx : utf16Le sampleProfile.expiresAt
      (sampleContext.createdAt.getD (sampleDraws "first" 1).now) = false := by decide
  have hw₁ : SelfHostedKms.wrapDek inMemory sampleLog.environment
      (.after inMemory sampleLog.environment [.encryptionProfile sampleScope]) sampleProfile
      (sampleDraws "first" 1).dek = (.ok (toBase64 [0]),
        .after inMemory sampleLog.environment sampleOps) := Prod.ext (by decide) rfl
  obtain ⟨a₁, h₁⟩ := encrypt_of_wrapDek sampleLog.crypto misdeclaredPayload hx hw₁
  have hx₂ : utf16Le sampleProfile.expiresAt
      (sampleContext.createdAt.getD (sampleDraws "second" 2).now) = false := by decide
  obtain ⟨s₂, hw₂⟩ := wrapDek_second
  obtain ⟨a₂, h₂⟩ := encrypt_of_wrapDek sampleLog.crypto samplePayload hx₂ hw₂
  obtain ⟨rfl, version, hv, hc⟩ := encrypt_ok h₂
  have hE : sampleLog.environment.Ideal := CipherLog.ideal_environment
  have hd := inMemoryView.drawn_after hE sampleOps
  obtain ⟨audit, hopen⟩ := decrypt_capsuleOf hE hd hv fresh_second rfl verified_samplePayload
    length_samplePayload opening_second
  rw [← hc] at hopen
  refine ⟨_, _, a₁, a₂, _, _, h₁, ⟨?_, ?_, ?_, ?_, ?_⟩, ?_, ?_, h₂, ?_, ?_, ?_, ?_, ?_, ?_⟩
  · decide
  · decide
  · intro scope hm
    cases hm
  · decide
  · decide
  · exact decrypt_of_refused (by decide +kernel) (by decide +kernel) (by decide +kernel)
      (openPayload_misdeclared _)
  · intro s d encrypted context h
    exact decrypt_of_large d context h
  · decide
  · decide
  · decide
  · decide
  · intro h
    simp only [capsuleOf, fromBase64_toBase64] at h
    exact absurd (CipherLog.key_of_tag (List.mem_cons_of_mem _ List.mem_cons_self) h) (by decide)
  · exact ⟨_, audit, hopen⟩

end EvidenceEnvelopeEncryptor

end Qualigence.Evidence
