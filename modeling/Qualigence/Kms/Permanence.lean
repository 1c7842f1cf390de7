import Qualigence.Kms.Mirror

/-! # Revocations

A revoked version stays revoked in both stores, and a revoked capsule stays revoked in memory. The
rows keep one revocation for a capsule of a tenant, so a revocation in another scope of the tenant
takes the place of the first. While no revocation moves, the rows answer as the memory does.
-/

namespace Qualigence.Kms

open Evidence Foundation Protocol

/-! ## Versions -/

section Versions

variable {σ : Type}

/-- A version that is found revoked is found revoked after. -/
def VersionsStayRevoked (K : SelfHostedKmsKeyStore σ) (E : KmsEnvironment) : Prop :=
  ∀ ops ops' keyId id v,
    K.getByKeyId (KmsState.after K E ops).store keyId id = .ok (some v) → v.status = .revoked →
      ∃ v', K.getByKeyId (KmsState.after K E (ops ++ ops')).store keyId id = .ok (some v') ∧
        v'.status = .revoked

theorem runs_append {K : SelfHostedKmsKeyStore σ} {E : KmsEnvironment} (s : KmsState σ)
    (ops ops' : List KmsOp) : s.runs K E (ops ++ ops') = (s.runs K E ops).runs K E ops' := by
  simp [KmsState.runs]

theorem versions_stay_revoked {K : SelfHostedKmsKeyStore σ} {E : KmsEnvironment}
    (V : KeyStoreView K) (hE : E.Ideal) : VersionsStayRevoked K E := by
  intro ops ops' keyId id v hg hr
  have hd := V.drawn_after hE ops
  have hd' := V.drawn_after (E := E) hE (ops ++ ops')
  obtain ⟨hv, hk, hid⟩ := V.mem_of_get hg
  obtain ⟨v', hv', hkept⟩ := V.exists_after_runs ops' hd.sound hv
  rw [KmsState.after, runs_append] at hd' ⊢
  obtain ⟨w, hw⟩ := V.get_of_mem hd'.sound hv' fun u hu he => by
    rw [hd'.eq_of_keyId hu hv' he]
  obtain ⟨hwm, hwk, -⟩ := V.mem_of_get hw
  have he := hd'.eq_of_keyId hwm hv' hwk
  rw [he, hkept.keyId, hkept.scopeId, hk, hid] at hw
  exact ⟨v', hw, hkept.revoked hr⟩

/-- A capsule that is revoked in a scope is revoked in the scope after. -/
def CapsulesStayRevoked (K : SelfHostedKmsKeyStore σ) (E : KmsEnvironment)
    (ops ops' : List KmsOp) : Prop :=
  ∀ id capsuleId, K.isCapsuleRevoked (KmsState.after K E ops).store id capsuleId = .ok true →
    K.isCapsuleRevoked (KmsState.after K E (ops ++ ops')).store id capsuleId = .ok true

end Versions

/-! ## Capsules in memory -/

namespace InMemoryKmsKeyStore

variable {E : KmsEnvironment} {s : KmsState InMemoryKmsKeyStore}

theorem update_ok (s : KmsState InMemoryKmsKeyStore) (store : InMemoryKmsKeyStore) :
    (SelfHostedKms.update s (.ok store)).2.store = store := rfl

theorem revokedCapsules_createVersion (scope : EvidenceKeyScope) :
    (SelfHostedKms.createVersion inMemory E s scope).2.store.revokedCapsules =
      s.store.revokedCapsules := rfl

theorem revokedCapsules_ensurePrimaryVersion (scope : EvidenceKeyScope) :
    (SelfHostedKms.ensurePrimaryVersion inMemory E s scope).2.store.revokedCapsules =
      s.store.revokedCapsules := by
  unfold SelfHostedKms.ensurePrimaryVersion
  split <;> rfl

/-- An operation adds to the revoked capsules. -/
theorem revokedCapsules_step (op : KmsOp) :
    s.store.revokedCapsules ⊆ (s.step inMemory E op).store.revokedCapsules := by
  cases op with
  | setAvailable available => exact List.Subset.refl _
  | encryptionProfile scope =>
    simp only [KmsState.step, SelfHostedKms.encryptionProfile]
    split
    · exact List.Subset.refl _
    · rw [KeyStoreView.snd_profileOf, revokedCapsules_ensurePrimaryVersion]
      exact List.Subset.refl _
  | rotate scope =>
    simp only [KmsState.step, SelfHostedKms.rotate]
    split
    · exact List.Subset.refl _
    · rw [KeyStoreView.snd_profileOf, revokedCapsules_createVersion]
      exact List.Subset.refl _
  | wrapDek profile dek =>
    rw [KmsState.step]
    rcases KeyStoreView.snd_wrapDek (K := inMemory) (E := E) s profile dek with h | h
    · rw [h]
      exact List.Subset.refl _
    · rw [h]
      exact List.Subset.refl _
  | revoke capsuleId reason =>
    simp only [KmsState.step, SelfHostedKms.revoke]
    split
    · exact List.Subset.refl _
    · exact List.subset_append_left _ _
  | revokeForScope scope capsuleId reason =>
    simp only [KmsState.step, SelfHostedKms.revokeForScope]
    split
    · exact List.Subset.refl _
    · exact List.subset_append_left _ _
  | revokeScope scope =>
    simp only [KmsState.step, SelfHostedKms.revokeScope]
    split <;> exact List.Subset.refl _

theorem revokedCapsules_runs (s : KmsState InMemoryKmsKeyStore) (ops : List KmsOp) :
    s.store.revokedCapsules ⊆ (s.runs inMemory E ops).store.revokedCapsules := by
  induction ops generalizing s with
  | nil => exact List.Subset.refl _
  | cons op ops ih => exact List.Subset.trans (revokedCapsules_step op) (ih _)

theorem capsules_stay_revoked (ops ops' : List KmsOp) :
    CapsulesStayRevoked inMemory E ops ops' := by
  intro id capsuleId h
  have hsub := revokedCapsules_runs (E := E) (.after inMemory E ops) ops'
  rw [KmsState.after, runs_append]
  simp only [inMemory, isCapsuleRevoked, Except.ok.injEq, Bool.or_eq_true,
    decide_eq_true_eq] at h ⊢
  exact h.imp (fun hm => hsub hm) fun hm => hsub hm

end InMemoryKmsKeyStore

/-! ## Both runs -/

/-- A text of digits has no NUL. -/
theorem nul_not_mem_padded (width n : ℕ) : Char.ofNat 0 ∉ padded width n := by
  induction width generalizing n with
  | zero => exact List.not_mem_nil
  | succ width ih =>
    have hd : ∀ d < 10, Char.ofNat 0 ≠ Nat.digitChar d := by decide
    simp only [padded, List.mem_append, List.mem_singleton, not_or]
    exact ⟨ih _, hd _ (Nat.mod_lt _ (by decide))⟩

theorem validText_toISOString (ms : Int) : validText (toISOString ms) := by
  have hy : ∀ year, Char.ofNat 0 ∉ isoYear year := by
    intro year
    unfold isoYear
    split
    · exact nul_not_mem_padded _ _
    · simp only [List.mem_cons, not_or]
      refine ⟨?_, nul_not_mem_padded _ _⟩
      split <;> decide
  simp only [validText, toISOString, String.toList_ofList, decide_eq_true_eq, List.mem_append,
    List.mem_singleton, not_or]
  simp [hy, nul_not_mem_padded]

/-- The Postgres store takes the operation, and no revocation of a capsule moves to another
scope. -/
def Takes (s : KmsState PostgresSelfHostedKmsKeyStore) : KmsOp → Prop
  | .setAvailable _ => True
  | .encryptionProfile scope => Taken (scopeId scope)
  | .rotate scope => Taken (scopeId scope)
  | .wrapDek _ _ => True
  | .revoke _ _ => s.available = false
  | .revokeForScope scope capsuleId reason =>
    Taken (scopeId scope) ∧ validText capsuleId ∧ validText reason ∧
      KeepsScope s.store (scopeId scope) capsuleId
  | .revokeScope scope => Taken (scopeId scope)

/-- The two key managements after the same operations. -/
structure Agrees (E : KmsEnvironment) (ms : KmsState InMemoryKmsKeyStore)
    (ps : KmsState PostgresSelfHostedKmsKeyStore) : Prop where
  available : ps.available = ms.available
  draws : ps.draws = ms.draws
  mirrors : Mirrors ms.store ps.store
  drawn : inMemoryView.Drawn E ms

section Agrees

variable {E : KmsEnvironment} {ms : KmsState InMemoryKmsKeyStore}
  {ps : KmsState PostgresSelfHostedKmsKeyStore}

theorem agrees_createVersion (hE : E.Ideal) (h : Agrees E ms ps) {scope : EvidenceKeyScope}
    (ht : Taken (scopeId scope)) :
    Agrees E (SelfHostedKms.createVersion inMemory E ms scope).2
      (SelfHostedKms.createVersion postgres E ps scope).2 := by
  let v := SelfHostedKms.keyVersion E ms.draws (scopeId scope)
    ((ms.store.listVersions (scopeId scope)).length + 1)
  have hfresh : ∀ w ∈ ms.store.versions, w.keyId ≠ v.keyId := by
    intro w hw he
    obtain ⟨n, hn, hk, -⟩ := h.drawn.drawn w hw
    exact absurd (hE.keyId_injective (hk.symm.trans he)) (Nat.ne_of_lt hn)
  obtain ⟨p₁, p₂, hput, hset, hm⟩ :=
    h.mirrors.setPrimary (v := v) ht (hE.keyId_valid ms.draws) rfl hfresh rfl
  have hl : postgres.listVersions ps.store (scopeId scope) =
      .ok ((ms.store.listVersions (scopeId scope)).map StoredKmsKeyVersion.shown) :=
    h.mirrors.listVersions_eq ht
  have hp : (SelfHostedKms.createVersion postgres E ps scope).2 =
      ⟨p₂, ps.available, ps.draws + 1⟩ := by
    have hput' : postgres.putVersion ps.store v = .ok p₁ := hput
    have hset' : postgres.setPrimary p₁ (scopeId scope) v.keyId = .ok p₂ := hset
    simp only [SelfHostedKms.createVersion, hl, List.length_map, h.draws]
    rw [hput']
    dsimp only
    rw [hset']
  rw [hp]
  exact ⟨h.available, congrArg (· + 1) h.draws, hm,
    h.drawn.advance hE (KeyStoreView.advances_createVersion trivial scope)⟩

theorem agrees_ensurePrimaryVersion (hE : E.Ideal) (h : Agrees E ms ps) {scope : EvidenceKeyScope}
    (ht : Taken (scopeId scope)) :
    Agrees E (SelfHostedKms.ensurePrimaryVersion inMemory E ms scope).2
      (SelfHostedKms.ensurePrimaryVersion postgres E ps scope).2 := by
  have hm : inMemory.primaryVersion ms.store (scopeId scope) =
      .ok (ms.store.primaryVersion (scopeId scope)) := rfl
  have hp : postgres.primaryVersion ps.store (scopeId scope) =
      .ok (ms.store.primaryVersion (scopeId scope)) := h.mirrors.primaryVersion_eq ht
  simp only [SelfHostedKms.ensurePrimaryVersion, hm, hp]
  cases ms.store.primaryVersion (scopeId scope) with
  | some existing => exact h
  | none => exact agrees_createVersion hE h ht

/-- A version that is found wraps under the profile. -/
def wraps (E : KmsEnvironment) (n : ℕ) (profile : EvidenceEncryptionProfile) :
    Except KeyStoreError (Option StoredKmsKeyVersion) → Bool
  | .ok (some v) => decide (v.status = .active) &&
      profileMatches (SelfHostedKms.buildProfile E n (scopeFromId v.scopeId) v) profile
  | _ => false

theorem snd_wrapDek_eq {σ : Type} (K : SelfHostedKmsKeyStore σ) (s : KmsState σ)
    (profile : EvidenceEncryptionProfile) (dek : List UInt8) :
    (SelfHostedKms.wrapDek K E s profile dek).2 =
      if s.available && wraps E s.draws profile
          (K.getByKeyId s.store profile.wrappingKeyId (scopeId (profileScope profile))) then
        { s with draws := s.draws + 1 }
      else s := by
  simp only [SelfHostedKms.wrapDek]
  cases s.available with
  | false => rfl
  | true =>
    cases K.getByKeyId s.store profile.wrappingKeyId (scopeId (profileScope profile)) with
    | error error => rfl
    | ok found =>
      cases found with
      | none => rfl
      | some v =>
        cases hs : v.status with
        | revoked => simp [wraps, hs]
        | active =>
          cases hm : profileMatches
            (SelfHostedKms.buildProfile E s.draws (scopeFromId v.scopeId) v) profile <;>
            simp [wraps, hs, hm]

theorem agrees_wrapDek (h : Agrees E ms ps) (profile : EvidenceEncryptionProfile)
    (dek : List UInt8) :
    Agrees E (SelfHostedKms.wrapDek inMemory E ms profile dek).2
      (SelfHostedKms.wrapDek postgres E ps profile dek).2 := by
  have hw : wraps E ms.draws profile (postgres.getByKeyId ps.store profile.wrappingKeyId
        (scopeId (profileScope profile))) =
      wraps E ms.draws profile (inMemory.getByKeyId ms.store profile.wrappingKeyId
        (scopeId (profileScope profile))) := by
    rcases h.mirrors.getByKeyId_cases profile.wrappingKeyId (scopeId (profileScope profile)) with
      hg | ⟨⟨error, hg⟩, hn⟩
    · simp only [postgres, inMemory, hg]
      cases ms.store.getByKeyId profile.wrappingKeyId (scopeId (profileScope profile)) with
      | none => rfl
      | some v => rfl
    · simp [postgres, inMemory, hg, hn, wraps]
  rw [snd_wrapDek_eq, snd_wrapDek_eq, h.available, h.draws, hw]
  split
  · exact ⟨rfl, rfl, h.mirrors,
      ⟨trivial, fun v hv => by
        obtain ⟨n, hn, hd⟩ := h.drawn.drawn v hv
        exact ⟨n, Nat.lt_succ_of_lt hn, hd⟩, h.drawn.nodup⟩⟩
  · exact h

theorem agrees_step (hE : E.Ideal) (h : Agrees E ms ps) {op : KmsOp} (ho : Takes ps op) :
    Agrees E (ms.step inMemory E op) (ps.step postgres E op) := by
  have ha := h.available
  cases op with
  | setAvailable available =>
    exact ⟨rfl, h.draws, h.mirrors, ⟨trivial, h.drawn.drawn, h.drawn.nodup⟩⟩
  | encryptionProfile scope =>
    simp only [KmsState.step, SelfHostedKms.encryptionProfile, ha]
    split
    · exact h
    · rw [KeyStoreView.snd_profileOf, KeyStoreView.snd_profileOf]
      exact agrees_ensurePrimaryVersion hE h ho
  | rotate scope =>
    simp only [KmsState.step, SelfHostedKms.rotate, ha]
    split
    · exact h
    · rw [KeyStoreView.snd_profileOf, KeyStoreView.snd_profileOf]
      exact agrees_createVersion hE h ho
  | wrapDek profile dek => exact agrees_wrapDek h profile dek
  | revoke capsuleId reason =>
    have hm : ms.available = false := ha.symm.trans ho
    simp only [KmsState.step, SelfHostedKms.revoke, ha, hm]
    exact h
  | revokeForScope scope capsuleId reason =>
    obtain ⟨⟨⟨tenantId, ht⟩, hv⟩, hc, hr, hkeep⟩ := ho
    simp only [KmsState.step, SelfHostedKms.revokeForScope, ha, h.draws]
    split
    · exact h
    · obtain ⟨p', hp⟩ : ∃ p', ps.store.markCapsuleRevoked ⟨some (scopeId scope), capsuleId, reason,
          toISOString (E.nowMs ms.draws)⟩ = .ok p' :=
        ⟨_, PostgresSelfHostedKmsKeyStore.checked_ok ht (by
          simp [hv, hc, hr, validText_toISOString])⟩
      have hm := h.mirrors.markCapsuleRevoked hv hkeep hp
      simp only [postgres, hp]
      exact ⟨h.available, h.draws, hm, ⟨trivial, h.drawn.drawn, h.drawn.nodup⟩⟩
  | revokeScope scope =>
    obtain ⟨⟨tenantId, ht⟩, hv⟩ := ho
    have hd := h.drawn.advance hE
      (KeyStoreView.advances_step (E := E) h.drawn.sound (.revokeScope scope))
    simp only [KmsState.step, SelfHostedKms.revokeScope, ha] at hd ⊢
    split
    · exact h
    · next hav =>
      obtain ⟨p', hp⟩ : ∃ p', ps.store.markScopeRevoked (scopeId scope) = .ok p' :=
        ⟨_, PostgresSelfHostedKmsKeyStore.checked_ok ht (by simp [hv])⟩
      have hm := h.mirrors.markScopeRevoked hp
      rw [if_neg hav] at hd
      simp only [postgres, hp]
      exact ⟨h.available, h.draws, hm, hd⟩

/-- Every operation meets a condition on the state before it. -/
def Meets (E : KmsEnvironment) (P : KmsState PostgresSelfHostedKmsKeyStore → KmsOp → Prop) :
    KmsState PostgresSelfHostedKmsKeyStore → List KmsOp → Prop
  | _, [] => True
  | s, op :: ops => P s op ∧ Meets E P (s.step postgres E op) ops

theorem agrees_runs (hE : E.Ideal) (h : Agrees E ms ps) {ops : List KmsOp}
    (ho : Meets E Takes ps ops) : Agrees E (ms.runs inMemory E ops) (ps.runs postgres E ops) := by
  induction ops generalizing ms ps with
  | nil => exact h
  | cons op ops ih => exact ih (agrees_step hE h ho.1) ho.2

theorem agrees_after (hE : E.Ideal) {ops : List KmsOp}
    (ho : Meets E Takes (SelfHostedKms.start postgres) ops) :
    Agrees E (.after inMemory E ops) (.after postgres E ops) :=
  agrees_runs hE ⟨rfl, rfl, .empty, KeyStoreView.drawn_start⟩ ho

theorem meets_append {P : KmsState PostgresSelfHostedKmsKeyStore → KmsOp → Prop}
    {s : KmsState PostgresSelfHostedKmsKeyStore} {ops ops' : List KmsOp} :
    Meets E P s (ops ++ ops') ↔ Meets E P s ops ∧ Meets E P (s.runs postgres E ops) ops' := by
  induction ops generalizing s with
  | nil => simp [Meets, KmsState.runs]
  | cons op ops ih =>
    rw [List.cons_append, Meets, Meets, ih, and_assoc]
    rfl

/-- While no revocation moves, a revoked capsule stays revoked in the rows. -/
theorem capsules_stay_revoked (hE : E.Ideal) {ops ops' : List KmsOp}
    (ho : Meets E Takes (SelfHostedKms.start postgres) (ops ++ ops')) :
    CapsulesStayRevoked postgres E ops ops' := by
  intro id capsuleId h
  have hbefore := agrees_after hE (meets_append.mp ho).1
  have hafter := agrees_after hE ho
  obtain ⟨tenantId, ht, hv, -⟩ := PostgresSelfHostedKmsKeyStore.ok_of_checked h
  have hid : Taken id := ⟨⟨tenantId, ht⟩, hv id (by simp)⟩
  have hc : validText capsuleId := hv capsuleId (by simp)
  have hm : inMemory.isCapsuleRevoked (KmsState.after inMemory E ops).store id capsuleId =
      .ok true := (hbefore.mirrors.isCapsuleRevoked_eq hid hc).symm.trans h
  have hm' := InMemoryKmsKeyStore.capsules_stay_revoked ops ops' id capsuleId hm
  exact (hafter.mirrors.isCapsuleRevoked_eq hid hc).trans hm'

/-! ### Flags -/

/-- The versions with the flag are active. -/
def Flagged (m : InMemoryKmsKeyStore) : Prop :=
  ∀ v ∈ m.versions, v.isPrimary → v.status = .active

/-- A scope is revoked without a primary version. -/
def RevokesNoPrimary (s : KmsState PostgresSelfHostedKmsKeyStore) : KmsOp → Prop
  | .revokeScope scope =>
    ∀ r ∈ s.store.versions.rows, r.version.scopeId = scopeId scope → r.version.isPrimary = false
  | _ => True

theorem flagged_createVersion (hE : E.Ideal) (hd : inMemoryView.Drawn E ms)
    (h : Flagged ms.store) (scope : EvidenceKeyScope) :
    Flagged (SelfHostedKms.createVersion inMemory E ms scope).2.store := by
  intro v hv hp
  obtain ⟨u, hu, rfl⟩ := List.mem_map.mp hv
  rcases List.mem_append.mp hu with hu | hu
  · by_cases hin : ofScope (scopeId scope) u
    · -- the flag goes to the fresh key
      rw [if_pos hin] at hp
      obtain ⟨n, hn, hk, -⟩ := hd.drawn u hu
      exact absurd (hE.keyId_injective (hk.symm.trans (of_decide_eq_true hp))) (Nat.ne_of_lt hn)
    · rw [if_neg hin] at hp ⊢
      exact h u hu hp
  · rw [List.mem_singleton.mp hu]
    split <;> rfl

theorem flagged_step (hE : E.Ideal) (h : Agrees E ms ps) (hf : Flagged ms.store) {op : KmsOp}
    (ho : RevokesNoPrimary ps op) : Flagged (ms.step inMemory E op).store := by
  cases op with
  | setAvailable available => exact hf
  | encryptionProfile scope =>
    simp only [KmsState.step, SelfHostedKms.encryptionProfile]
    split
    · exact hf
    · rw [KeyStoreView.snd_profileOf]
      unfold SelfHostedKms.ensurePrimaryVersion
      split
      · exact hf
      · exact hf
      · exact flagged_createVersion hE h.drawn hf scope
  | rotate scope =>
    simp only [KmsState.step, SelfHostedKms.rotate]
    split
    · exact hf
    · rw [KeyStoreView.snd_profileOf]
      exact flagged_createVersion hE h.drawn hf scope
  | wrapDek profile dek =>
    rw [KmsState.step, snd_wrapDek_eq]
    split <;> exact hf
  | revoke capsuleId reason =>
    simp only [KmsState.step, SelfHostedKms.revoke]
    split <;> exact hf
  | revokeForScope scope capsuleId reason =>
    simp only [KmsState.step, SelfHostedKms.revokeForScope]
    split <;> exact hf
  | revokeScope scope =>
    simp only [KmsState.step, SelfHostedKms.revokeScope]
    split
    · exact hf
    · intro v hv hp
      obtain ⟨u, hu, rfl⟩ := List.mem_map.mp hv
      by_cases hin : ofScope (scopeId scope) u
      · rw [if_pos hin] at hp
        have hmem : u.shown ∈ ps.store.allVersions := by
          rw [h.mirrors.versions]
          exact List.mem_map_of_mem hu
        obtain ⟨r, hr, hru⟩ := List.mem_map.mp hmem
        have hn := ho r hr (by rw [hru]; exact of_decide_eq_true hin)
        have hu' : u.isPrimary := hp
        rw [hru, Mirrors.shown_of_active (hf u hu hu')] at hn
        exact absurd (hu'.symm.trans hn) (by decide)
      · rw [if_neg hin] at hp ⊢
        exact hf u hu hp

theorem flagged_runs (hE : E.Ideal) (h : Agrees E ms ps) (hf : Flagged ms.store)
    {ops : List KmsOp} (ho : Meets E (fun s op => Takes s op ∧ RevokesNoPrimary s op) ps ops) :
    Flagged (ms.runs inMemory E ops).store := by
  induction ops generalizing ms ps with
  | nil => exact hf
  | cons op ops ih => exact ih (agrees_step hE h ho.1.1) (flagged_step hE h hf ho.1.2) ho.2

theorem Meets.imp {P Q : KmsState PostgresSelfHostedKmsKeyStore → KmsOp → Prop}
    (hPQ : ∀ s op, P s op → Q s op) {s : KmsState PostgresSelfHostedKmsKeyStore}
    {ops : List KmsOp} (h : Meets E P s ops) : Meets E Q s ops := by
  induction ops generalizing s with
  | nil => trivial
  | cons op ops ih => exact ⟨hPQ s op h.1, ih h.2⟩

/-- The rows of versions with flags only on active ones are the versions. -/
theorem sameAnswers_of_flagged {m : InMemoryKmsKeyStore} {p : PostgresSelfHostedKmsKeyStore}
    (h : Mirrors m p) (hf : Flagged m) : SameAnswers id m p := by
  have hshown : ∀ v ∈ m.versions, v.shown = v := by
    intro v hv
    cases hp : v.isPrimary with
    | true => exact Mirrors.shown_of_active (hf v hv hp)
    | false =>
      cases v
      simp only at hp
      simp [StoredKmsKeyVersion.shown, hp]
  refine ⟨fun scope hid => ?_, fun keyId scope hid hk => ?_, fun scope hid =>
    h.primaryVersion_eq hid, fun scope capsuleId hid hc => h.isCapsuleRevoked_eq hid hc⟩
  · change (p.listVersions scope).map _ = .ok ((m.listVersions scope).map id)
    rw [h.listVersions_eq hid]
    have he : (m.listVersions scope).map StoredKmsKeyVersion.shown = m.listVersions scope := by
      conv_rhs => rw [← List.map_id (m.listVersions scope)]
      exact List.map_congr_left fun v hv => hshown v (List.mem_filter.mp hv).1
    simp [Except.map, he]
  · change (p.getByKeyId keyId scope).map _ = .ok ((m.getByKeyId keyId scope).map id)
    rw [h.getByKeyId_eq hid hk]
    cases hg : m.getByKeyId keyId scope with
    | none => rfl
    | some v =>
      have hv := hshown v (h.getByKeyId_eq_some_iff.mp hg).1
      simp [Except.map, hv]

end Agrees

/-- In every run a version stays revoked in both stores, and a capsule in memory. While the Postgres
store takes the operations and no revocation moves, a capsule stays revoked in its rows too and it
answers as the memory does, but for the flags of revoked versions; for these too while no scope is
revoked with a primary version. -/
theorem revocations_are_permanent (E : KmsEnvironment) (hE : E.Ideal) :
    VersionsStayRevoked inMemory E ∧ VersionsStayRevoked postgres E ∧
      (∀ ops ops', CapsulesStayRevoked inMemory E ops ops') ∧
      (∀ ops ops', Meets E Takes (SelfHostedKms.start postgres) (ops ++ ops') →
        CapsulesStayRevoked postgres E ops ops') ∧
      (∀ ops, Meets E Takes (SelfHostedKms.start postgres) ops →
        SameAnswers StoredKmsKeyVersion.shown (KmsState.after inMemory E ops).store
          (KmsState.after postgres E ops).store) ∧
      ∀ ops, Meets E (fun s op => Takes s op ∧ RevokesNoPrimary s op)
          (SelfHostedKms.start postgres) ops →
        SameAnswers id (KmsState.after inMemory E ops).store
          (KmsState.after postgres E ops).store := by
  refine ⟨versions_stay_revoked inMemoryView hE, versions_stay_revoked postgresView hE,
    InMemoryKmsKeyStore.capsules_stay_revoked, fun ops ops' ho => capsules_stay_revoked hE ho,
    fun ops ho => (agrees_after hE ho).mirrors.sameAnswers, fun ops ho => ?_⟩
  have hstart : Agrees E (SelfHostedKms.start inMemory) (SelfHostedKms.start postgres) :=
    ⟨rfl, rfl, .empty, KeyStoreView.drawn_start⟩
  have hf := flagged_runs hE hstart (fun _ hv => absurd hv List.not_mem_nil) ho
  exact sameAnswers_of_flagged (agrees_after hE (ho.imp fun _ _ h => h.1)).mirrors hf

/-! ### One capsule in two scopes -/

def firstCase : EvidenceKeyScope := ⟨"t", "first", "r", "p"⟩

def secondCase : EvidenceKeyScope := ⟨"t", "second", "r", "p"⟩

theorem taken_firstCase : Taken (scopeId firstCase) :=
  ⟨⟨"t", by decide⟩, by decide⟩

theorem revokedThenRotated :
    VersionsStayRevoked inMemory countingEnvironment ∧
      VersionsStayRevoked postgres countingEnvironment ∧
      CapsulesStayRevoked postgres countingEnvironment
        [.revokeForScope firstCase "capsule" "reason"] [.rotate firstCase] ∧
      SameAnswers id
        (KmsState.after inMemory countingEnvironment [.rotate firstCase]).store
        (KmsState.after postgres countingEnvironment [.rotate firstCase]).store := by
  obtain ⟨hm, hp, -, hc, -, hs⟩ :=
    revocations_are_permanent countingEnvironment countingEnvironment_ideal
  refine ⟨hm, hp, hc _ _ ⟨⟨taken_firstCase, by decide, by decide, ?_⟩, taken_firstCase, trivial⟩,
    hs _ ⟨⟨taken_firstCase, trivial⟩, trivial⟩⟩
  exact fun _ hr => absurd hr List.not_mem_nil

/-- The second revocation of the capsule takes the first one away from the rows. -/
theorem second_scope_unrevokes_first :
    postgres.isCapsuleRevoked (KmsState.after postgres countingEnvironment
        [.revokeForScope firstCase "capsule" "reason"]).store (scopeId firstCase) "capsule" =
          .ok true ∧
      postgres.isCapsuleRevoked (KmsState.after postgres countingEnvironment
        [.revokeForScope firstCase "capsule" "reason",
          .revokeForScope secondCase "capsule" "reason"]).store (scopeId firstCase) "capsule" =
          .ok false ∧
      inMemory.isCapsuleRevoked (KmsState.after inMemory countingEnvironment
        [.revokeForScope firstCase "capsule" "reason",
          .revokeForScope secondCase "capsule" "reason"]).store (scopeId firstCase) "capsule" =
          .ok true ∧
      ¬ CapsulesStayRevoked postgres countingEnvironment
        [.revokeForScope firstCase "capsule" "reason"]
        [.revokeForScope secondCase "capsule" "reason"] := by
  have hbefore : postgres.isCapsuleRevoked (KmsState.after postgres countingEnvironment
      [.revokeForScope firstCase "capsule" "reason"]).store (scopeId firstCase) "capsule" =
        .ok true := by decide
  have hafter : postgres.isCapsuleRevoked (KmsState.after postgres countingEnvironment
      [.revokeForScope firstCase "capsule" "reason",
        .revokeForScope secondCase "capsule" "reason"]).store (scopeId firstCase) "capsule" =
        .ok false := by decide
  refine ⟨hbefore, hafter, by decide, fun h => ?_⟩
  have hstays := h (scopeId firstCase) "capsule" hbefore
  exact nomatch hafter.symm.trans hstays

end Qualigence.Kms
