import Qualigence.Kms.Versions

/-! # Scopes of the wrapping keys

The identifier of a scope joins its parts, and the parts are read back when a data key is wrapped.
The scopes are isolated when no part of a scope has a separator.
-/

namespace Qualigence.Kms

open Evidence Foundation

/-! ## Identifiers of scopes -/

/-- No part of the scope has a separator. -/
def Plain (scope : EvidenceKeyScope) : Prop :=
  '|' ∉ scope.tenantId.toList ∧ '|' ∉ scope.caseId.toList ∧ '|' ∉ scope.region.toList ∧
    '|' ∉ scope.purpose.toList

instance (scope : EvidenceKeyScope) : Decidable (Plain scope) :=
  inferInstanceAs (Decidable (_ ∧ _))

theorem splitOn_scopeId {scope : EvidenceKeyScope} (h : Plain scope) :
    (scopeId scope).toList.splitOn '|' =
      [scope.tenantId.toList, scope.caseId.toList, scope.region.toList, scope.purpose.toList] := by
  obtain ⟨ht, hc, hr, hp⟩ := h
  rw [scopeId, String.toList_ofList]
  refine List.splitOn_intercalate '|' ?_ (by simp)
  intro part hm
  simp only [List.mem_cons, List.not_mem_nil, or_false] at hm
  rcases hm with rfl | rfl | rfl | rfl <;> assumption

theorem scopeFromId_scopeId {scope : EvidenceKeyScope} (h : Plain scope) :
    scopeFromId (scopeId scope) = scope := by
  simp [scopeFromId, splitOn_scopeId h]

theorem not_mem_of_mem_splitOn {α : Type} [DecidableEq α] {separator : α} {part : List α} :
    ∀ {text : List α}, part ∈ text.splitOn separator → separator ∉ part
  | [], h => by
    rw [List.splitOn_nil, List.mem_singleton] at h
    simp [h]
  | x :: text, h => by
    rw [List.splitOn_cons_eq_if_modifyHead] at h
    split at h
    · rcases List.mem_cons.mp h with rfl | h
      · exact List.not_mem_nil
      · exact not_mem_of_mem_splitOn h
    · next hx =>
      cases hs : text.splitOn separator with
      | nil => exact absurd hs (List.splitOn_ne_nil separator text)
      | cons first parts =>
        rw [hs, List.modifyHead_cons] at h
        have hrest : ∀ q ∈ first :: parts, separator ∉ q := by
          intro q hq
          exact not_mem_of_mem_splitOn (hs ▸ hq)
        rcases List.mem_cons.mp h with rfl | h
        · have hf := hrest first List.mem_cons_self
          simp only [List.mem_cons, not_or]
          exact ⟨fun he => hx (by simp [he]), hf⟩
        · exact hrest part (List.mem_cons_of_mem _ h)

theorem not_mem_part {id : String} {n : ℕ} {fallback : String} (h : '|' ∉ fallback.toList) :
    '|' ∉ (((id.toList.splitOn '|')[n]?.map String.ofList).getD fallback).toList := by
  cases hp : (id.toList.splitOn '|')[n]? with
  | none => simpa using h
  | some part =>
    have hm := List.mem_of_getElem? hp
    simp only [Option.map_some, Option.getD_some, String.toList_ofList]
    exact not_mem_of_mem_splitOn hm

/-- A scope that is read from an identifier has no separator. -/
theorem plain_scopeFromId (id : String) : Plain (scopeFromId id) :=
  ⟨not_mem_part (by decide), not_mem_part (by decide), not_mem_part (by decide),
    not_mem_part (by decide)⟩

theorem count_scopeId (scope : EvidenceKeyScope) :
    (scopeId scope).toList.count '|' =
      scope.tenantId.toList.count '|' + scope.caseId.toList.count '|' +
        scope.region.toList.count '|' + scope.purpose.toList.count '|' + 3 := by
  rw [scopeId, String.toList_ofList]
  simp [List.intercalate, List.intersperse, List.count_append]
  omega

theorem plain_iff_count (scope : EvidenceKeyScope) :
    Plain scope ↔ (scopeId scope).toList.count '|' = 3 := by
  rw [count_scopeId]
  simp only [Plain, ← List.count_eq_zero]
  omega

/-- A scope without a separator has its identifier for itself. -/
theorem eq_of_scopeId_eq {A B : EvidenceKeyScope} (hA : Plain A) (h : scopeId B = scopeId A) :
    B = A := by
  have hB : Plain B := by
    rw [plain_iff_count, h]
    exact (plain_iff_count A).mp hA
  rw [← scopeFromId_scopeId hB, h, scopeFromId_scopeId hA]

/-! ## Isolation -/

section Isolation

variable {σ : Type}

/-- A store that lists the versions of the scope. -/
def Accepted (K : SelfHostedKmsKeyStore σ) (scope : EvidenceKeyScope) : Prop :=
  ∃ versions, K.listVersions K.empty (scopeId scope) = .ok versions

/-- In every run, what is wrapped under the scope is unwrapped for no other scope, no other scope
has a key of the scope, and its profiles wrap while their keys are active. -/
structure Isolated (K : SelfHostedKmsKeyStore σ) (E : KmsEnvironment) (scope : EvidenceKeyScope) :
    Prop where
  unwraps_only : ∀ ops ops' profile dek wrapped manifest requested dek',
    profileScope profile = scope →
    (SelfHostedKms.wrapDek K E (.after K E ops) profile dek).1 = .ok wrapped →
    manifest.wrappedDekBase64 = wrapped →
    SelfHostedKms.unwrapDek K E (.after K E (ops ++ .wrapDek profile dek :: ops')) manifest
      requested = .ok dek' →
    requested = scope
  shares_no_key : ∀ ops other versions versions', ∀ v ∈ versions, ∀ v' ∈ versions',
    K.listVersions (KmsState.after K E ops).store (scopeId scope) = .ok versions →
    K.listVersions (KmsState.after K E ops).store (scopeId other) = .ok versions' →
    v.keyId = v'.keyId → other = scope
  profile_wraps : ∀ ops ops' profile dek,
    (SelfHostedKms.encryptionProfile K E (.after K E ops) scope).1 = .ok profile →
    let s := KmsState.after K E (ops ++ .encryptionProfile scope :: ops')
    s.available →
    ∃ v, K.getByKeyId s.store profile.wrappingKeyId (scopeId scope) = .ok (some v) ∧
      (v.status = .active → ∃ wrapped, (SelfHostedKms.wrapDek K E s profile dek).1 = .ok wrapped)

variable {K : SelfHostedKmsKeyStore σ} {E : KmsEnvironment} {s : KmsState σ}
  {profile : EvidenceEncryptionProfile} {scope : EvidenceKeyScope} {dek : List UInt8}

theorem after_append (ops : List KmsOp) (op : KmsOp) (ops' : List KmsOp) :
    KmsState.after K E (ops ++ op :: ops') =
      ((KmsState.after K E ops).step K E op).runs K E ops' := by
  simp [KmsState.after, KmsState.runs]

/-- What is checked before a data key is wrapped. -/
theorem wrapDek_ok {wrapped : String}
    (h : (SelfHostedKms.wrapDek K E s profile dek).1 = .ok wrapped) :
    ∃ v, K.getByKeyId s.store profile.wrappingKeyId (scopeId (profileScope profile)) =
        .ok (some v) ∧
      profileMatches (SelfHostedKms.buildProfile E s.draws (scopeFromId v.scopeId) v) profile ∧
      wrapped = E.publicEncrypt v.publicKeyPem s.draws dek := by
  simp only [SelfHostedKms.wrapDek] at h
  split at h
  · cases h
  · split at h
    · cases h
    · cases h
    · next v hv =>
      split at h
      · cases h
      · split at h
        · cases h
        · next hm =>
          cases h
          exact ⟨v, hv, by simpa using hm, rfl⟩

theorem wrapDek_of_matches {v : StoredKmsKeyVersion} (ha : s.available)
    (hv : K.getByKeyId s.store profile.wrappingKeyId (scopeId (profileScope profile)) =
      .ok (some v)) (hs : v.status = .active)
    (hm : profileMatches (SelfHostedKms.buildProfile E s.draws (scopeFromId v.scopeId) v) profile) :
    (SelfHostedKms.wrapDek K E s profile dek).1 =
      .ok (E.publicEncrypt v.publicKeyPem s.draws dek) := by
  simp [SelfHostedKms.wrapDek, ha, hv, hs, hm]

/-- What is checked before a data key is unwrapped. -/
theorem unwrapDek_ok {manifest : RemoteEvidenceCapsuleManifest}
    (h : SelfHostedKms.unwrapDek K E s manifest scope = .ok dek) :
    ∃ v, K.getByKeyId s.store manifest.protectedHeader.wrappingKeyId (scopeId scope) =
        .ok (some v) ∧
      E.privateDecrypt v.sealedPrivateKey manifest.wrappedDekBase64 = some dek := by
  simp only [SelfHostedKms.unwrapDek] at h
  split at h
  · cases h
  · split at h
    · cases h
    · cases h
    · split at h
      · cases h
      · split at h
        · cases h
        · cases h
        · next v hv =>
          split at h
          · cases h
          · split at h
            · cases h
            · split at h
              · cases h
              · next hd =>
                cases h
                exact ⟨v, hv, hd⟩

theorem scope_of_profileMatches {n : ℕ} {built : EvidenceKeyScope} {v : StoredKmsKeyVersion}
    (h : profileMatches (SelfHostedKms.buildProfile E n built v) profile) :
    built = profileScope profile := by
  simp only [profileMatches, SelfHostedKms.buildProfile, Bool.and_eq_true] at h
  obtain ⟨⟨⟨⟨⟨⟨⟨⟨⟨ht, hc⟩, hr⟩, hp⟩, -⟩, -⟩, -⟩, -⟩, -⟩, -⟩ := h
  cases built
  simp only [profileScope, EvidenceKeyScope.mk.injEq]
  exact ⟨of_decide_eq_true ht, of_decide_eq_true hc, of_decide_eq_true hr, of_decide_eq_true hp⟩

/-- A version is issued in its profile, and it is in the store. -/
theorem profileOf_ok {n : ℕ} {r : SelfHostedKms.Outcome σ StoredKmsKeyVersion}
    (h : (SelfHostedKms.profileOf E n scope r).1 = .ok profile) :
    ∃ v, r.1 = .ok v ∧ profile = SelfHostedKms.buildProfile E n scope v := by
  unfold SelfHostedKms.profileOf at h
  split at h
  · next version s' => exact ⟨version, rfl, (Except.ok.inj h).symm⟩
  · cases h

variable (V : KeyStoreView K)

theorem mem_of_createVersion {v : StoredKmsKeyVersion} (hE : E.Ideal) (hd : V.Drawn E s)
    (h : (SelfHostedKms.createVersion K E s scope).1 = .ok v) : v.scopeId = scopeId scope ∧
      ∃ v' ∈ V.versions (SelfHostedKms.createVersion K E s scope).2.store, v.Kept v' := by
  simp only [SelfHostedKms.createVersion] at h ⊢
  split at h
  · cases h
  · split at h
    · cases h
    · next store hp =>
      split at h
      · cases h
      · next primary hm =>
        cases h
        refine ⟨rfl, ?_⟩
        obtain ⟨hs, hv⟩ := V.putVersion hd.sound hp
        have hr := (V.setPrimary hs hm).2
        rcases hv with hv | ⟨-, w, hw, hk⟩
        · simp only [*]
          exact hr.exists_after (hv ▸ List.mem_append_right _ (List.mem_singleton.mpr rfl))
        · obtain ⟨n, hn, hkn, -⟩ := hd.drawn w hw
          have he := hE.keyId_injective (hk.symm.trans hkn)
          exact absurd he.symm (Nat.ne_of_lt hn)

theorem mem_of_ensurePrimaryVersion {v : StoredKmsKeyVersion} (hE : E.Ideal) (hd : V.Drawn E s)
    (h : (SelfHostedKms.ensurePrimaryVersion K E s scope).1 = .ok v) : v.scopeId = scopeId scope ∧
      ∃ v' ∈ V.versions (SelfHostedKms.ensurePrimaryVersion K E s scope).2.store, v.Kept v' := by
  simp only [SelfHostedKms.ensurePrimaryVersion] at h ⊢
  split at h
  · cases h
  · next existing hp =>
    cases h
    obtain ⟨hv, hid⟩ := V.mem_of_primary hp
    exact ⟨hid, v, by simpa [hp] using hv, .refl v⟩
  · next hp =>
    exact mem_of_createVersion V hE hd h

/-- A profile names a version of its scope. -/
theorem version_of_profile (hE : E.Ideal) (hd : V.Drawn E s)
    (h : (SelfHostedKms.encryptionProfile K E s scope).1 = .ok profile) :
    ∃ v, profile = SelfHostedKms.buildProfile E s.draws scope v ∧ v.scopeId = scopeId scope ∧
      ∃ v' ∈ V.versions (s.step K E (.encryptionProfile scope)).store, v.Kept v' := by
  simp only [KmsState.step, SelfHostedKms.encryptionProfile] at h ⊢
  split at h
  · cases h
  · next ha =>
    obtain ⟨v, hv, hp⟩ := profileOf_ok h
    obtain ⟨hid, hmem⟩ := mem_of_ensurePrimaryVersion V hE hd hv
    rw [if_neg ha, KeyStoreView.snd_profileOf]
    exact ⟨v, hp, hid, hmem⟩

theorem profileScope_buildProfile (n : ℕ) (v : StoredKmsKeyVersion) :
    profileScope (SelfHostedKms.buildProfile E n scope v) = scope := rfl

theorem profileMatches_buildProfile {v v' : StoredKmsKeyVersion} (n n' : ℕ) (h : v.Kept v') :
    profileMatches (SelfHostedKms.buildProfile E n scope v')
      (SelfHostedKms.buildProfile E n' scope v) := by
  simp [profileMatches, SelfHostedKms.buildProfile, h.keyId, h.publicKeyPem]

include V in
/-- A scope without a separator is isolated. -/
theorem isolated_of_plain (hE : E.Ideal) (hp : Plain scope) : Isolated K E scope where
  unwraps_only ops ops' profile dek wrapped manifest requested dek' hs hw hm hu := by
    have hd := V.drawn_after hE ops
    obtain ⟨v, hv, -, hwrapped⟩ := wrapDek_ok hw
    obtain ⟨w, hg, hdec⟩ := unwrapDek_ok hu
    obtain ⟨hvm, -, hvs⟩ := V.mem_of_get hv
    obtain ⟨hwm, -, hws⟩ := V.mem_of_get hg
    have hd' := V.drawn_after (E := E) hE (ops ++ .wrapDek profile dek :: ops')
    obtain ⟨n, -, hkn, hpn, -⟩ := hd.drawn v hvm
    obtain ⟨m, -, hkm, -, hsm⟩ := hd'.drawn w hwm
    -- the pair that decrypts is the pair that encrypted, so the version is the same
    rw [hm, hwrapped, hpn, hsm] at hdec
    have hmn := hE.decrypt_only _ _ _ _ _ hdec
    obtain ⟨v', hv', hk⟩ := V.exists_after_runs (.wrapDek profile dek :: ops') hd.sound hvm
    rw [after_append] at hwm hd'
    have he : v' = w := hd'.eq_of_keyId hv' hwm (by rw [hk.keyId, hkn, hkm, hmn])
    apply eq_of_scopeId_eq hp
    rw [← hws, ← he, hk.scopeId, hvs, hs]
  shares_no_key ops other versions versions' v hv v' hv' hl hl' hk := by
    obtain ⟨hvm, hvs⟩ := V.mem_of_list hl hv
    obtain ⟨hvm', hvs'⟩ := V.mem_of_list hl' hv'
    have he := (V.drawn_after hE ops).eq_of_keyId hvm hvm' hk
    apply eq_of_scopeId_eq hp
    rw [← hvs', ← he, hvs]
  profile_wraps ops ops' profile dek hi ha := by
    have hd := V.drawn_after hE ops
    obtain ⟨v, rfl, hid, v₁, hv₁, hk₁⟩ := version_of_profile V hE hd hi
    have hd' := V.drawn_after (E := E) hE (ops ++ .encryptionProfile scope :: ops')
    rw [after_append] at hd'
    obtain ⟨v', hv', hk'⟩ := V.exists_after_runs ops'
      (KeyStoreView.advances_step hd.sound (.encryptionProfile scope)).sound hv₁
    have hk := hk₁.trans hk'
    obtain ⟨w, hw⟩ := V.get_of_mem hd'.sound hv' fun u hu he => by
      rw [hd'.eq_of_keyId hu hv' he]
    obtain ⟨hwm, hwk, -⟩ := V.mem_of_get hw
    have he := hd'.eq_of_keyId hwm hv' hwk
    rw [he, hk.keyId, hk.scopeId, hid] at hw
    rw [after_append] at ha ⊢
    refine ⟨v', hw, fun hs => ⟨_, wrapDek_of_matches ha hw hs ?_⟩⟩
    rw [hk.scopeId, hid, scopeFromId_scopeId hp]
    exact profileMatches_buildProfile _ _ hk

include V in
/-- The first profile of an isolated scope wraps, and the parts that are read back are those of the
scope. -/
theorem plain_of_isolated (hE : E.Ideal) (ha : Accepted K scope) (h : Isolated K E scope) :
    Plain scope := by
  obtain ⟨versions, hl⟩ := ha
  obtain ⟨rfl, hprimary, hissue⟩ := V.issues hl
  let v := SelfHostedKms.keyVersion E 0 (scopeId scope) 1
  obtain ⟨s₁, s₂, hput, hset, hstatus⟩ := hissue v rfl (hE.keyId_valid 0)
  have hi : SelfHostedKms.encryptionProfile K E (.after K E []) scope =
      (.ok (SelfHostedKms.buildProfile E 0 scope v), ⟨s₂, true, 1⟩) := by
    have hput' : K.putVersion K.empty (SelfHostedKms.keyVersion E 0 (scopeId scope) 1) = .ok s₁ :=
      hput
    have hset' : K.setPrimary s₁ (scopeId scope)
      (SelfHostedKms.keyVersion E 0 (scopeId scope) 1).keyId = .ok s₂ := hset
    simp [SelfHostedKms.encryptionProfile, SelfHostedKms.ensurePrimaryVersion,
      SelfHostedKms.createVersion, SelfHostedKms.profileOf, KmsState.after, KmsState.runs,
      SelfHostedKms.start, hl, hprimary, hput', hset', v]
  obtain ⟨w, hw, hwraps⟩ := h.profile_wraps [] [] (SelfHostedKms.buildProfile E 0 scope v) []
    (by rw [hi]) (by
      change (SelfHostedKms.encryptionProfile K E (.after K E []) scope).2.available = true
      rw [hi])
  change K.getByKeyId (SelfHostedKms.encryptionProfile K E (.after K E []) scope).2.store _ _ =
    _ at hw
  rw [hi] at hw
  obtain ⟨wrapped, hwrap⟩ := hwraps (hstatus w (V.mem_of_get hw).1)
  obtain ⟨u, hu, hm, -⟩ := wrapDek_ok hwrap
  have hs := scope_of_profileMatches hm
  rw [profileScope_buildProfile] at hs
  rw [← hs]
  exact plain_scopeFromId u.scopeId

end Isolation

/-- In both stores, the scopes that are isolated are those without a separator. -/
theorem isolated_iff_plain (E : KmsEnvironment) (hE : E.Ideal) (scope : EvidenceKeyScope) :
    (Accepted inMemory scope → (Isolated inMemory E scope ↔ Plain scope)) ∧
      (Accepted postgres scope → (Isolated postgres E scope ↔ Plain scope)) :=
  ⟨fun ha => ⟨plain_of_isolated inMemoryView hE ha, isolated_of_plain inMemoryView hE⟩,
    fun ha => ⟨plain_of_isolated postgresView hE ha, isolated_of_plain postgresView hE⟩⟩

/-! ## A scope with a separator -/

/-- A key pair is named by its number, and what is wrapped names the pair. -/
def countingEnvironment : KmsEnvironment where
  generateKeyPair n :=
    let name := String.ofList (List.replicate n 'k')
    ⟨name, name, ⟨name, "", ""⟩⟩
  nowMs n := n
  publicEncrypt pem _ dek :=
    String.ofList (pem.toList ++ '.' :: dek.map fun b => Char.ofNat b.toNat)
  privateDecrypt key wrapped :=
    if wrapped.toList.takeWhile (· ≠ '.') = key.ciphertext.toList then
      some ((wrapped.toList.drop (key.ciphertext.length + 1)).map fun c => UInt8.ofNat c.toNat)
    else none
  recipient := "worker"
  policyId := "policy"
  allowedEntryKinds := ["trace"]
  maximumEntryBytes := 1024
  maximumPlaintextBytes := 1024
  maximumCiphertextBytes := 1024
  ttlMs := 1000

theorem takeWhile_wrapped (m n : ℕ) (dek : List UInt8) :
    (countingEnvironment.publicEncrypt (countingEnvironment.generateKeyPair m).publicKeyPem n
      dek).toList.takeWhile (· ≠ '.') = List.replicate m 'k' := by
  simp only [countingEnvironment, String.toList_ofList]
  rw [List.takeWhile_append_of_pos]
  · simp
  · intro c hc
    rw [List.eq_of_mem_replicate hc]
    decide

theorem countingEnvironment_ideal : countingEnvironment.Ideal where
  keyId_injective m n h := by
    have hl := congrArg String.toList h
    simp only [countingEnvironment, String.toList_ofList] at hl
    simpa using congrArg List.length hl
  keyId_valid n := by
    simp only [validText, countingEnvironment, String.toList_ofList, decide_eq_true_eq]
    intro hm
    exact absurd (List.eq_of_mem_replicate hm) (by decide)
  decrypt_only m m' n dek dek' h := by
    have hw := takeWhile_wrapped m n dek
    simp only [countingEnvironment, String.toList_ofList] at hw h
    rw [hw] at h
    split at h
    · next he => simpa using (congrArg List.length he).symm
    · cases h

theorem plainScope_isolated :
    (Isolated inMemory countingEnvironment ⟨"t", "c", "r", "p"⟩ ↔ Plain ⟨"t", "c", "r", "p"⟩) ∧
      (Isolated postgres countingEnvironment ⟨"t", "c", "r", "p"⟩ ↔ Plain ⟨"t", "c", "r", "p"⟩) :=
  have h := isolated_iff_plain countingEnvironment countingEnvironment_ideal ⟨"t", "c", "r", "p"⟩
  ⟨h.1 ⟨[], rfl⟩, h.2 ⟨[], by decide⟩⟩

/-- A case that ends in a region, and the same identifier with the region split elsewhere. -/
def caseWithSeparator : EvidenceKeyScope := ⟨"t", "c|r", "x", "p"⟩

def regionWithSeparator : EvidenceKeyScope := ⟨"t", "c", "r|x", "p"⟩

def caseProfile : EvidenceEncryptionProfile :=
  SelfHostedKms.buildProfile countingEnvironment 0 caseWithSeparator
    (SelfHostedKms.keyVersion countingEnvironment 0 (scopeId caseWithSeparator) 1)

/-- The two scopes get one key, the profile does not wrap, and the scope is not isolated in either
store. -/
theorem separator_shares_key :
    caseWithSeparator ≠ regionWithSeparator ∧
      (SelfHostedKms.encryptionProfile inMemory countingEnvironment
        (.after inMemory countingEnvironment []) caseWithSeparator).1 = .ok caseProfile ∧
      (SelfHostedKms.encryptionProfile inMemory countingEnvironment
        (.after inMemory countingEnvironment [.encryptionProfile caseWithSeparator])
        regionWithSeparator).1.toOption.map EvidenceEncryptionProfile.wrappingKeyId =
          some caseProfile.wrappingKeyId ∧
      (SelfHostedKms.wrapDek inMemory countingEnvironment
        (.after inMemory countingEnvironment [.encryptionProfile caseWithSeparator])
        caseProfile [1]).1 = .error (.kmsScopeDenied "wrap" "profile_tampered") ∧
      ¬ Isolated inMemory countingEnvironment caseWithSeparator ∧
      ¬ Isolated postgres countingEnvironment caseWithSeparator := by
  refine ⟨by decide, by decide, by decide, by decide, ?_, ?_⟩
  · intro h
    have hp := plain_of_isolated inMemoryView countingEnvironment_ideal ⟨[], rfl⟩ h
    exact absurd hp (by decide)
  · intro h
    have ha : Accepted postgres caseWithSeparator := ⟨[], by decide⟩
    have hp := plain_of_isolated postgresView countingEnvironment_ideal ha h
    exact absurd hp (by decide)

end Qualigence.Kms
