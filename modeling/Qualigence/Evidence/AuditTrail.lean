import Qualigence.Evidence.Auditing

/-! # One audit event for each call

Encryption writes one audit event however it ends. So does decryption, except where the library
throws behind the key management: then the call ends without any audit event.
-/

namespace Qualigence.Evidence

open Foundation Foundation.Program Protocol Kms EvidenceEnvelopeEncryptor

variable {α β : Type} {kms : KeyManagementProvider} {L : CapsuleLibrary}

/-- A call ends in an outcome and writes events to the trail. -/
def Writes (kms : KeyManagementProvider) (call : Encrypting α) (r : Except EnvelopeError α)
    (events : List EvidenceAuditEvent) : Prop :=
  ∀ trail, run kms.handler call trail = (r, trail ++ events)

/-- However a call ends, it writes one event, which says success exactly when the call returns. -/
def AuditedOnce (kms : KeyManagementProvider) (call : Encrypting α) : Prop :=
  ∀ trail, ∃ event, (run kms.handler call trail).2 = trail ++ [event] ∧
    (event.decision = "allowed" ↔ ∃ a, (run kms.handler call trail).1 = .ok a)

theorem writes_pure (a : α) : Writes kms (.pure a : Encrypting α) (.ok a) [] := by
  intro trail
  simp

theorem writes_throw (e : EnvelopeError) : Writes kms (.throw e : Encrypting α) (.error e) [] := by
  intro trail
  simp

theorem writes_ofExcept {r r' : Except EnvelopeError α} (h : r = r') :
    Writes kms (AuditedEncryptor.ofExcept r) r' [] := by
  subst h
  cases r with
  | ok a => exact writes_pure a
  | error e => exact writes_throw e

theorem writes_record (event : EvidenceAuditEvent) :
    Writes kms (AuditedEncryptor.record event) (.ok ()) [event] :=
  fun trail => run_perform kms.handler trail (EncryptorOp.record event)

/-- An operation that leaves the trail as it is. -/
theorem writes_perform {op : EncryptorOp} {r : Except EnvelopeError (encryptorSignature.Reply op)}
    (h : kms.handler op = fun trail => (r, trail)) :
    Writes kms (perform (S := encryptorSignature) op) r [] := by
  intro trail
  rw [run_perform, List.append_nil, h]

theorem writes_bind {call : Encrypting α} {f : α → Encrypting β} {a : α}
    {r : Except EnvelopeError β} {events later : List EvidenceAuditEvent}
    (h : Writes kms call (.ok a) events) (hf : Writes kms (f a) r later) :
    Writes kms (call.bind f) r (events ++ later) := by
  intro trail
  rw [run_bind, h trail]
  dsimp only
  rw [hf, List.append_assoc]

theorem writes_bind_error {call : Encrypting α} {f : α → Encrypting β} {e : EnvelopeError}
    {events : List EvidenceAuditEvent} (h : Writes kms call (.error e) events) :
    Writes kms (call.bind f) (.error e) events := by
  intro trail
  rw [run_bind, h trail]

theorem writes_tryCatch {call : Encrypting α} {f : EnvelopeError → Encrypting α} {a : α}
    {events : List EvidenceAuditEvent} (h : Writes kms call (.ok a) events) :
    Writes kms (call.tryCatch f) (.ok a) events := by
  intro trail
  rw [run_tryCatch, h trail]

theorem writes_tryCatch_error {call : Encrypting α} {f : EnvelopeError → Encrypting α}
    {e : EnvelopeError} {r : Except EnvelopeError α} {events later : List EvidenceAuditEvent}
    (h : Writes kms call (.error e) events) (hf : Writes kms (f e) r later) :
    Writes kms (call.tryCatch f) r (events ++ later) := by
  intro trail
  rw [run_tryCatch, h trail]
  dsimp only
  rw [hf, List.append_assoc]

/-- An event is written, and the call throws. -/
theorem writes_record_throw (event : EvidenceAuditEvent) (e : EnvelopeError) :
    Writes kms ((AuditedEncryptor.record event).bind fun _ => (.throw e : Encrypting α)) (.error e)
      [event] := writes_bind (writes_record event) (writes_throw e)

/-- An event is written, and the call returns. -/
theorem writes_record_pure (event : EvidenceAuditEvent) (a : α) :
    Writes kms ((AuditedEncryptor.record event).bind fun _ => (.pure a : Encrypting α)) (.ok a)
      [event] := writes_bind (writes_record event) (writes_pure a)

theorem Writes.returned {call : Encrypting α} {a : α} {event : EvidenceAuditEvent}
    (h : Writes kms call (.ok a) [event]) (he : event.decision = "allowed") :
    AuditedOnce kms call := by
  intro trail
  rw [h trail]
  exact ⟨event, rfl, fun _ => ⟨a, rfl⟩, fun _ => he⟩

theorem Writes.refused {call : Encrypting α} {e : EnvelopeError} {event : EvidenceAuditEvent}
    (h : Writes kms call (.error e) [event]) (he : event.decision ≠ "allowed") :
    AuditedOnce kms call := by
  intro trail
  rw [h trail]
  exact ⟨event, rfl, fun hallowed => absurd hallowed he, nofun⟩

theorem Writes.not_auditedOnce {call : Encrypting α} {r : Except EnvelopeError α}
    (h : Writes kms call r []) : ¬ AuditedOnce kms call := by
  intro ha
  obtain ⟨event, hevent, -⟩ := ha []
  rw [h []] at hevent
  cases hevent

theorem denied_ne_allowed : "denied" ≠ "allowed" := by decide

theorem failed_ne_allowed : "failed" ≠ "allowed" := by decide

/-! ## Encryption -/

theorem encrypt_auditedOnce (d : EncryptDraws) (payload : EvidenceCapsulePayload)
    (profile : EvidenceEncryptionProfile) (context : EncryptCapsuleContext) :
    AuditedOnce kms (AuditedEncryptor.encrypt L d payload profile context) := by
  have hopens := L.opensCipher_drawn d.dek d.nonce d.dek_length d.nonce_length
  unfold AuditedEncryptor.encrypt
  dsimp only
  split
  · exact (writes_record_throw _ _).refused denied_ne_allowed
  rw [if_neg (by rw [hopens]; decide)]
  cases hwrap : kms.wrapDek profile d.dek with
  | error cause =>
    have hp : Writes kms (perform (S := encryptorSignature) (.wrapDek profile d.dek))
        (.error cause) [] := writes_perform (funext fun trail => congrArg (·, trail) hwrap)
    exact (writes_bind_error (writes_tryCatch_error hp (writes_record_throw _ _))).refused
      failed_ne_allowed
  | ok wrapped =>
    have hp : Writes kms (perform (S := encryptorSignature) (.wrapDek profile d.dek))
        (.ok wrapped) [] := writes_perform (funext fun trail => congrArg (·, trail) hwrap)
    refine (writes_bind (writes_tryCatch hp) (writes_record_pure _ _)).returned ?_
    rfl

/-! ## Decryption -/

section Decrypt

variable (d : CallDraws) (encrypted : EncryptedCapsule) (context : EvidenceDecryptionContext)

theorem writes_auditThrown (event : AuditOutcome → EvidenceAuditEvent) (e : EvidenceCapsuleError) :
    Writes kms (AuditedEncryptor.auditThrown event (.capsule e) : Encrypting α) (.error (.capsule e))
      [event ⟨"unwrap", "denied", e.code.text⟩] := writes_record_throw _ _

theorem writes_unwrapFailed (event : AuditOutcome → EvidenceAuditEvent) (cause : EnvelopeError) :
    ∃ e outcome, outcome.decision ≠ "allowed" ∧
      Writes kms (AuditedEncryptor.unwrapFailed event cause : Encrypting α) (.error e)
        [event outcome] := by
  have hdecision : (if AuditedEncryptor.unwrapCode cause = .evidenceLimited then "failed"
      else "denied") ≠ "allowed" := by
    split
    · exact failed_ne_allowed
    · exact denied_ne_allowed
  cases cause with
  | capsule error => exact ⟨_, ⟨"unwrap", _, _⟩, hdecision, writes_record_throw _ _⟩
  | typeError => exact ⟨_, ⟨"unwrap", _, _⟩, hdecision, writes_record_throw _ _⟩

variable (kms L) in
/-- The library throws behind the key management. -/
def LibraryThrows : Prop :=
  AuditedEncryptor.checkBoundary L encrypted context (context.now.getD d.now) = .ok () ∧
    ∃ dek, kms.unwrapDek encrypted.manifest
        ⟨context.tenantId, context.caseId, context.region, context.purpose⟩ = .ok dek ∧
      AuditedEncryptor.openPayload L dek encrypted = .error .typeError

theorem checkBoundary_error {e : EnvelopeError} {now : String}
    (h : AuditedEncryptor.checkBoundary L encrypted context now = .error e) :
    ∃ error, e = .capsule error := by
  unfold AuditedEncryptor.checkBoundary at h
  cases hb : (do boundManifest L.toCapsuleCrypto encrypted.manifest encrypted.ciphertext
                 assertScope encrypted.manifest context now) with
  | error error =>
    rw [hb] at h
    cases h
    exact ⟨error, rfl⟩
  | ok a =>
    rw [hb] at h
    cases h

/-- The outcome of opening a payload, and the events that are written about it. -/
theorem writes_readPayload (event : AuditOutcome → EvidenceAuditEvent) (dek : List UInt8) :
    Writes kms (AuditedEncryptor.readPayload L event dek encrypted)
      (AuditedEncryptor.openPayload L dek encrypted)
      (match AuditedEncryptor.openPayload L dek encrypted with
        | .ok _ => [event ⟨"unwrap", "allowed", "ok"⟩]
        | .error (.capsule error) => [event ⟨"unwrap", "denied", error.code.text⟩]
        | .error .typeError => []) := by
  unfold AuditedEncryptor.readPayload
  cases hopen : AuditedEncryptor.openPayload L dek encrypted with
  | ok payload =>
    exact writes_tryCatch (writes_bind (writes_ofExcept rfl) (writes_record_pure _ payload))
  | error e =>
    cases e with
    | capsule error =>
      exact writes_tryCatch_error (writes_bind_error (writes_ofExcept rfl))
        (writes_auditThrown event error)
    | typeError =>
      exact writes_tryCatch_error (writes_bind_error (writes_ofExcept rfl)) (writes_throw .typeError)

/-- What decryption does behind the boundary, under a data key. -/
theorem writes_decrypt {dek : List UInt8}
    (hb : AuditedEncryptor.checkBoundary L encrypted context (context.now.getD d.now) = .ok ())
    (hdek : kms.unwrapDek encrypted.manifest
      ⟨context.tenantId, context.caseId, context.region, context.purpose⟩ = .ok dek)
    {r : Except EnvelopeError JsValue} {events : List EvidenceAuditEvent}
    (hread : Writes kms (AuditedEncryptor.readPayload L (writeFromHeader d
      encrypted.manifest.protectedHeader context.actor) dek encrypted) r events) :
    Writes kms (AuditedEncryptor.decrypt L d encrypted context) r events := by
  have hp : Writes kms (perform (S := encryptorSignature) (.unwrapDek encrypted.manifest
      ⟨context.tenantId, context.caseId, context.region, context.purpose⟩)) (.ok dek) [] :=
    writes_perform (funext fun trail => congrArg (·, trail) hdek)
  exact writes_bind (writes_tryCatch (writes_ofExcept hb)) (writes_bind (writes_tryCatch hp) hread)

/-- Decryption writes one audit event unless the library throws behind the key management. -/
theorem decrypt_auditedOnce_iff :
    AuditedOnce kms (AuditedEncryptor.decrypt L d encrypted context) ↔
      ¬ LibraryThrows kms L d encrypted context := by
  let event : AuditOutcome → EvidenceAuditEvent :=
    writeFromHeader d encrypted.manifest.protectedHeader context.actor
  let scope : EvidenceKeyScope := ⟨context.tenantId, context.caseId, context.region, context.purpose⟩
  unfold LibraryThrows
  cases hb : AuditedEncryptor.checkBoundary L encrypted context (context.now.getD d.now) with
  | error e =>
    obtain ⟨error, rfl⟩ := checkBoundary_error encrypted context hb
    refine iff_of_true ?_ nofun
    exact (writes_bind_error (writes_tryCatch_error (writes_ofExcept hb)
      (writes_auditThrown event error))).refused denied_ne_allowed
  | ok u =>
    cases hunwrap : kms.unwrapDek encrypted.manifest scope with
    | error cause =>
      refine iff_of_true ?_ ?_
      · have hp : Writes kms (perform (S := encryptorSignature)
            (.unwrapDek encrypted.manifest scope)) (.error cause) [] :=
          writes_perform (funext fun trail => congrArg (·, trail) hunwrap)
        obtain ⟨e, outcome, hdecision, hfailed⟩ := @writes_unwrapFailed _ kms event cause
        exact (writes_bind (writes_tryCatch (writes_ofExcept hb)) (writes_bind_error
          (writes_tryCatch_error hp hfailed))).refused hdecision
      · rintro ⟨-, dek, hdek, -⟩
        cases hdek
    | ok dek =>
      have hread := writes_decrypt d encrypted context hb hunwrap
        (writes_readPayload encrypted event dek)
      cases hopen : AuditedEncryptor.openPayload L dek encrypted with
      | ok payload =>
        rw [hopen] at hread
        refine iff_of_true (hread.returned rfl) ?_
        rintro ⟨-, dek', hdek, hthrows⟩
        cases hdek
        rw [hopen] at hthrows
        cases hthrows
      | error e =>
        rw [hopen] at hread
        cases e with
        | capsule error =>
          refine iff_of_true (hread.refused denied_ne_allowed) ?_
          rintro ⟨-, dek', hdek, hthrows⟩
          cases hdek
          rw [hopen] at hthrows
          cases hthrows
        | typeError => exact iff_of_false hread.not_auditedOnce fun hn => hn ⟨rfl, dek, rfl, hopen⟩

/-! ## What the library throws on -/

/-- An entry whose properties the check of the entry cannot use: it has none, its data makes no
bytes, or the message of a mismatch cannot be put together. -/
inductive UnusableEntry (L : CapsuleLibrary) (entry : JsValue) : Prop where
  | noProperties (h : property entry "dataBase64" = .error .typeError)
  | noBytes {data : JsValue} (h : property entry "dataBase64" = .ok data)
      (hbytes : L.bufferFrom data = none)
  | noSizeMessage {data declared entryId : JsValue} {bytes : List UInt8}
      (h : property entry "dataBase64" = .ok data) (hbytes : L.bufferFrom data = some bytes)
      (hdeclared : property entry "plaintextBytes" = .ok declared)
      (hid : property entry "entryId" = .ok entryId) (hsize : declared ≠ .int bytes.length)
      (htext : templateText entryId = none ∨ templateText declared = none)
  | noHashMessage {data declared entryId digest : JsValue} {bytes : List UInt8}
      (h : property entry "dataBase64" = .ok data) (hbytes : L.bufferFrom data = some bytes)
      (hdeclared : property entry "plaintextBytes" = .ok declared)
      (hid : property entry "entryId" = .ok entryId) (hsize : declared = .int bytes.length)
      (hdigest : property entry "plaintextSha256" = .ok digest)
      (hhash : digest ≠ .str (L.sha256Hex bytes)) (htext : templateText entryId = none)

theorem property_error {value : JsValue} {key : String} {e : EnvelopeError}
    (h : property value key = .error e) : e = .typeError := by
  unfold property at h
  split at h <;> cases h <;> rfl

/-- What has one property can be asked for any. -/
theorem property_ok {value data : JsValue} {key : String} (h : property value key = .ok data)
    (key' : String) : ∃ data', property value key' = .ok data' := by
  unfold property at h ⊢
  split at h
  · cases h
  · cases h
  · exact ⟨_, rfl⟩
  · exact ⟨_, rfl⟩

theorem violation_eq_typeError {message : Option String} :
    CapsuleLibrary.violation message = .typeError ↔ message = none := by
  cases message <;> simp [CapsuleLibrary.violation, integrityViolation]

theorem verifyCapsuleEntry_throws {entry : JsValue} :
    L.verifyCapsuleEntry entry = .error .typeError ↔ UnusableEntry L entry := by
  unfold CapsuleLibrary.verifyCapsuleEntry
  cases hdata : property entry "dataBase64" with
  | error e =>
    obtain rfl := property_error hdata
    exact iff_of_true rfl (.noProperties hdata)
  | ok data =>
    rw [ok_bind]
    cases hbytes : L.bufferFrom data with
    | none => exact iff_of_true rfl (.noBytes hdata hbytes)
    | some bytes =>
      obtain ⟨declared, hdeclared⟩ := property_ok hdata "plaintextBytes"
      obtain ⟨entryId, hid⟩ := property_ok hdata "entryId"
      obtain ⟨digest, hdigest⟩ := property_ok hdata "plaintextSha256"
      simp only [hdeclared, hid, hdigest, ok_bind]
      by_cases hsize : declared = .int bytes.length
      · rw [if_neg (not_not.mpr hsize)]
        by_cases hhash : digest = .str (L.sha256Hex bytes)
        · rw [if_neg (not_not.mpr hhash)]
          refine iff_of_false nofun fun hu => ?_
          cases hu <;> simp_all
        · rw [if_pos hhash, Except.error.injEq, violation_eq_typeError]
          constructor
          · intro htext
            refine .noHashMessage hdata hbytes hdeclared hid hsize hdigest hhash ?_
            cases ht : templateText entryId with
            | none => rfl
            | some text => simp [ht] at htext
          · intro hu
            cases hu <;> simp_all
      · rw [if_pos hsize, Except.error.injEq, violation_eq_typeError]
        constructor
        · intro htext
          refine .noSizeMessage hdata hbytes hdeclared hid hsize ?_
          cases ht : templateText entryId with
          | none => exact .inl rfl
          | some text =>
            cases hd : templateText declared with
            | none => exact .inr rfl
            | some shown => simp [ht, hd] at htext
        · intro hu
          cases hu with
          | noProperties h => cases hdata.symm.trans h
          | noBytes h hb =>
            cases hdata.symm.trans h
            cases hbytes.symm.trans hb
          | noSizeMessage h hb hd hi _ htext =>
            cases hdeclared.symm.trans hd
            cases hid.symm.trans hi
            rcases htext with ht | ht
            · simp [ht]
            · cases templateText entryId <;> simp [ht]
          | noHashMessage h hb hd hi hs =>
            cases hdata.symm.trans h
            cases hbytes.symm.trans hb
            cases hdeclared.symm.trans hd
            exact absurd hs hsize

theorem verifyEntries_throws {entries : List JsValue} :
    L.verifyEntries entries = .error .typeError ↔ ∃ sound entry rest,
      entries = sound ++ entry :: rest ∧ (∀ e ∈ sound, L.verifyCapsuleEntry e = .ok ()) ∧
        UnusableEntry L entry := by
  induction entries with
  | nil =>
    refine iff_of_false nofun ?_
    rintro ⟨sound, entry, rest, he, -⟩
    exact absurd he (by simp)
  | cons first entries ih =>
    rw [CapsuleLibrary.verifyEntries]
    cases hfirst : L.verifyCapsuleEntry first with
    | error e =>
      constructor
      · intro he
        have hthrows : L.verifyCapsuleEntry first = .error .typeError := by
          rw [hfirst]
          exact he
        exact ⟨[], first, entries, rfl, fun _ hm => absurd hm List.not_mem_nil,
          verifyCapsuleEntry_throws.mp hthrows⟩
      · rintro ⟨sound, entry, rest, he, hsound, hu⟩
        cases sound with
        | nil =>
          cases he
          rw [verifyCapsuleEntry_throws.mpr hu] at hfirst
          cases hfirst
          rfl
        | cons s sound =>
          cases he
          cases hfirst.symm.trans (hsound first List.mem_cons_self)
    | ok u =>
      rw [ok_bind, ih]
      constructor
      · rintro ⟨sound, entry, rest, rfl, hsound, hu⟩
        exact ⟨first :: sound, entry, rest, rfl, List.forall_mem_cons.mpr ⟨hfirst, hsound⟩, hu⟩
      · rintro ⟨sound, entry, rest, he, hsound, hu⟩
        cases sound with
        | nil =>
          cases he
          cases hfirst.symm.trans (verifyCapsuleEntry_throws.mpr hu)
        | cons s sound =>
          cases he
          exact ⟨sound, entry, rest, rfl, fun e hm => hsound e (List.mem_cons_of_mem _ hm), hu⟩

/-- The plaintext of a header is a payload, in which an entry cannot be used behind sound ones. -/
def UnusablePayload (L : CapsuleLibrary) (plaintext : List UInt8)
    (header : EvidenceCapsuleProtectedHeader) : Prop :=
  plaintext.length = header.plaintextBytes ∧ L.sha256Hex plaintext = header.plaintextSha256 ∧
    ∃ fields, parseJson (utf8Decode plaintext) = some (.obj fields) ∧
      JsValue.field "schemaVersion" fields = .str "evidence-capsule/v1" ∧
      (∃ runId, JsValue.field "runId" fields = .str runId) ∧
      ∃ sound entry rest, JsValue.field "entries" fields = .arr (sound ++ entry :: rest) ∧
        (∀ e ∈ sound, L.verifyCapsuleEntry e = .ok ()) ∧ UnusableEntry L entry

theorem parsePayload_throws {plaintext : List UInt8} {header : EvidenceCapsuleProtectedHeader} :
    L.parsePayload plaintext header = .error .typeError ↔ UnusablePayload L plaintext header := by
  unfold CapsuleLibrary.parsePayload UnusablePayload
  split
  · next hn =>
    refine iff_of_false nofun ?_
    rintro ⟨hlen, hhash, -⟩
    exact hn.elim (fun h => h hlen) fun h => h hhash
  · next hn =>
    rw [not_or, not_not, not_not] at hn
    simp only [hn.1, hn.2, true_and]
    split
    · next hnone =>
      refine iff_of_false nofun ?_
      rintro ⟨fields, hparse, -⟩
      cases hnone.symm.trans hparse
    · next fields hparse =>
      simp only [hparse, Option.some.injEq, JsValue.obj.injEq, exists_eq_left']
      split
      · next runId entries hschema hrun hentries =>
        simp only [hschema, hrun, hentries, JsValue.str.injEq, JsValue.arr.injEq, exists_eq',
          true_and]
        rw [← verifyEntries_throws]
        cases L.verifyEntries entries with
        | error e =>
          constructor
          · rintro ⟨⟩
            rfl
          · rintro ⟨⟩
            rfl
        | ok u => exact iff_of_false nofun nofun
      · next hn =>
        refine iff_of_false nofun ?_
        rintro ⟨hschema, ⟨runId, hrun⟩, sound, entry, rest, hentries, -⟩
        exact hn runId _ hschema hrun hentries
    · next value hn hparse =>
      refine iff_of_false nofun ?_
      rintro ⟨fields, hfields, -⟩
      cases hparse.symm.trans hfields
      exact hn fields rfl

/-- The exits of decryption behind which nothing is audited. -/
def Unaudited (kms : KeyManagementProvider) (L : CapsuleLibrary) : Prop :=
  AuditedEncryptor.checkBoundary L encrypted context (context.now.getD d.now) = .ok () ∧
    ∃ dek, kms.unwrapDek encrypted.manifest
        ⟨context.tenantId, context.caseId, context.region, context.purpose⟩ = .ok dek ∧
      (fromBase64 encrypted.manifest.authTagBase64).length = authTagBytes ∧
      (L.opensCipher dek (fromBase64 encrypted.manifest.nonceBase64) = false ∨
        L.opensCipher dek (fromBase64 encrypted.manifest.nonceBase64) ∧
        ∃ plaintext, L.aesGcmOpen dek (fromBase64 encrypted.manifest.nonceBase64)
            (canonicalProtectedHeaderBytes encrypted.manifest.protectedHeader) encrypted.ciphertext
            (fromBase64 encrypted.manifest.authTagBase64) = some plaintext ∧
          UnusablePayload L plaintext encrypted.manifest.protectedHeader)

theorem libraryThrows_iff :
    LibraryThrows kms L d encrypted context ↔
      Unaudited d encrypted context kms L := by
  unfold LibraryThrows Unaudited
  refine and_congr_right fun _ => exists_congr fun dek => and_congr_right fun _ => ?_
  unfold AuditedEncryptor.openPayload
  dsimp only
  split
  · next htag => exact iff_of_false nofun fun h => htag h.1
  · next htag =>
    rw [not_not] at htag
    split
    · next hopens => exact iff_of_true rfl ⟨htag, .inl hopens⟩
    · next hopens =>
      rw [Bool.not_eq_false] at hopens
      split
      · next hnone =>
        refine iff_of_false nofun ?_
        rintro ⟨-, hn | ⟨-, plaintext, hplain, -⟩⟩
        · cases hopens.symm.trans hn
        · cases hnone.symm.trans hplain
      · next plaintext hplain =>
        rw [parsePayload_throws]
        simp [htag, hopens, hplain]

end Decrypt

/-- Whatever the key management answers, encryption writes one audit event that tells how it ended,
and so does decryption, except when a data key or a nonce opens no decipher or an entry of the payload
cannot be used. -/
theorem every_call_audited_iff (kms : KeyManagementProvider) (L : CapsuleLibrary) :
    (∀ d payload profile context,
      AuditedOnce kms (AuditedEncryptor.encrypt L d payload profile context)) ∧
    ∀ d encrypted context, AuditedOnce kms (AuditedEncryptor.decrypt L d encrypted context) ↔
      ¬ Unaudited d encrypted context kms L := by
  refine ⟨encrypt_auditedOnce, fun d encrypted context => ?_⟩
  rw [decrypt_auditedOnce_iff, libraryThrows_iff]

/-! ### An empty nonce -/

/-- A library in which every text has one digest and every ciphertext is its own plaintext. -/
def sampleLibrary : CapsuleLibrary where
  sha256Hex _ := "digest"
  aesGcmSeal _ _ _ plaintext := (plaintext, List.replicate authTagBytes 0)
  aesGcmOpen _ _ _ ciphertext _ := some ciphertext
  opensCipher key nonce := decide (key.length = dekBytes) && decide (nonce ≠ [])
  bufferFrom
    | .str s => some (fromBase64 s)
    | _ => none
  opensCipher_drawn key nonce hkey hnonce := by
    have hne : nonce ≠ [] := by
      rintro rfl
      cases hnonce
    simp [hkey, hne]

def sampleKms : KeyManagementProvider where
  wrapDek _ _ := .ok "wrapped"
  unwrapDek _ _ := .ok (List.replicate dekBytes 0)

def sampleHeader : EvidenceCapsuleProtectedHeader where
  schemaVersion := "evidence-capsule-aad/v1"
  capsuleId := "capsule"
  profileId := "profile"
  payloadSchemaVersion := "evidence-capsule/v1"
  tenantId := "tenant"
  caseId := "case"
  recipient := "recipient"
  region := "region"
  purpose := "investigation"
  policyId := "policy"
  contentEncryptionAlgorithm := "A256GCM"
  keyWrappingAlgorithm := "RSA-OAEP-256"
  wrappingKeyId := "key"
  plaintextSha256 := "digest"
  plaintextBytes := 0
  createdAt := "2026-01-01"
  expiresAt := "2026-01-03"

/-- A manifest without a nonce. -/
def sampleEncrypted : EncryptedCapsule where
  manifest :=
    { protectedHeader := sampleHeader
      ciphertextSha256 := "digest"
      ciphertextBytes := 0
      wrappedDekBase64 := "wrapped"
      nonceBase64 := ""
      authTagBase64 := "AAAAAAAAAAAAAAAAAAAAAA==" }
  ciphertext := []

def sampleContext : EvidenceDecryptionContext where
  actor := ⟨"service", "worker", "correlation"⟩
  tenantId := "tenant"
  caseId := "case"
  recipient := "recipient"
  region := "region"
  purpose := "investigation"
  policyId := "policy"
  now := some "2026-01-02"

/-- A capsule without a nonce is refused by the cipher, and nothing is audited. -/
theorem empty_nonce_not_audited :
    (run sampleKms.handler (AuditedEncryptor.decrypt sampleLibrary ⟨"audit", "now", "now"⟩
      sampleEncrypted sampleContext) []) = (.error .typeError, []) ∧
    ¬ AuditedOnce sampleKms (AuditedEncryptor.decrypt sampleLibrary ⟨"audit", "now", "now"⟩
      sampleEncrypted sampleContext) := by
  have hrun : (run sampleKms.handler (AuditedEncryptor.decrypt sampleLibrary
      ⟨"audit", "now", "now"⟩ sampleEncrypted sampleContext) []) = (.error .typeError, []) := by
    decide
  refine ⟨hrun, fun h => ?_⟩
  obtain ⟨event, hevent, -⟩ := h []
  rw [hrun] at hevent
  cases hevent

end Qualigence.Evidence
