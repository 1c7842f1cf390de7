import Mathlib.Data.List.Forall2
import Qualigence.Kms.Provider

/-! # Versions of the wrapping keys

Both stores keep a list of versions to which versions are only appended, and the rewrites of a
version keep its key and its revocation. Over a run every version has a key pair of its own.
-/

namespace Qualigence.Kms

open Evidence Foundation

/-! ## The versions of a store -/

/-- A later form of a version: the key is the same, and a revoked version stays revoked. -/
structure StoredKmsKeyVersion.Kept (v v' : StoredKmsKeyVersion) : Prop where
  scopeId : v'.scopeId = v.scopeId
  keyId : v'.keyId = v.keyId
  publicKeyPem : v'.publicKeyPem = v.publicKeyPem
  sealedPrivateKey : v'.sealedPrivateKey = v.sealedPrivateKey
  revoked : v.status = .revoked → v'.status = .revoked

theorem StoredKmsKeyVersion.Kept.refl (v : StoredKmsKeyVersion) : v.Kept v :=
  ⟨rfl, rfl, rfl, rfl, id⟩

theorem StoredKmsKeyVersion.Kept.trans {u v w : StoredKmsKeyVersion} (h : u.Kept v)
    (h' : v.Kept w) : u.Kept w where
  scopeId := h'.scopeId.trans h.scopeId
  keyId := h'.keyId.trans h.keyId
  publicKeyPem := h'.publicKeyPem.trans h.publicKeyPem
  sealedPrivateKey := h'.sealedPrivateKey.trans h.sealedPrivateKey
  revoked hr := h'.revoked (h.revoked hr)

/-- The same versions, each in a later form. -/
abbrev Rewritten (vs vs' : List StoredKmsKeyVersion) : Prop :=
  List.Forall₂ StoredKmsKeyVersion.Kept vs vs'

theorem rewritten_map {f : StoredKmsKeyVersion → StoredKmsKeyVersion} 
    (hf : ∀ v, StoredKmsKeyVersion.Kept v (f v))
    (vs : List StoredKmsKeyVersion) : Rewritten vs (vs.map f) := by
  rw [Rewritten, List.forall₂_map_right_iff, List.forall₂_same]
  exact fun v _ => hf v

theorem Rewritten.refl (vs : List StoredKmsKeyVersion) : Rewritten vs vs :=
  List.forall₂_same.mpr fun v _ => .refl v

theorem Rewritten.trans {us vs ws : List StoredKmsKeyVersion} (h : Rewritten us vs)
    (h' : Rewritten vs ws) : Rewritten us ws := by
  induction h generalizing ws with
  | nil => exact h'
  | cons hv _ ih =>
    cases h' with
    | cons hw h' => exact .cons (hv.trans hw) (ih h')

theorem Rewritten.map_keyId {vs vs' : List StoredKmsKeyVersion} (h : Rewritten vs vs') :
    vs'.map StoredKmsKeyVersion.keyId = vs.map StoredKmsKeyVersion.keyId := by
  induction h with
  | nil => rfl
  | cons hv _ ih => rw [List.map_cons, List.map_cons, hv.keyId, ih]

theorem Rewritten.exists_before {vs vs' : List StoredKmsKeyVersion} {v' : StoredKmsKeyVersion}
    (h : Rewritten vs vs') (hv : v' ∈ vs') : ∃ v ∈ vs, v.Kept v' := by
  induction h with
  | nil => cases hv
  | cons hk _ ih =>
    rcases List.mem_cons.mp hv with rfl | hv
    · exact ⟨_, List.mem_cons_self, hk⟩
    · obtain ⟨v, hv, hk⟩ := ih hv
      exact ⟨v, List.mem_cons_of_mem _ hv, hk⟩

theorem Rewritten.exists_after {vs vs' : List StoredKmsKeyVersion} {v : StoredKmsKeyVersion}
    (h : Rewritten vs vs') (hv : v ∈ vs) : ∃ v' ∈ vs', v.Kept v' := by
  induction h with
  | nil => cases hv
  | cons hk _ ih =>
    rcases List.mem_cons.mp hv with rfl | hv
    · exact ⟨_, List.mem_cons_self, hk⟩
    · obtain ⟨v', hv', hk⟩ := ih hv
      exact ⟨v', List.mem_cons_of_mem _ hv', hk⟩

/-- What a store does to its versions, under an invariant of its own. -/
structure KeyStoreView {σ : Type} (K : SelfHostedKmsKeyStore σ) where
  versions : σ → List StoredKmsKeyVersion
  Sound : σ → Prop
  sound_empty : Sound K.empty
  versions_empty : versions K.empty = []
  putVersion : ∀ {s s' v}, Sound s → K.putVersion s v = .ok s' → Sound s' ∧
    (versions s' = versions s ++ [v] ∨
      versions s' = versions s ∧ ∃ w ∈ versions s, w.keyId = v.keyId)
  setPrimary : ∀ {s s' id keyId}, Sound s → K.setPrimary s id keyId = .ok s' → Sound s' ∧
    Rewritten (versions s) (versions s')
  markScopeRevoked : ∀ {s s' id}, Sound s → K.markScopeRevoked s id = .ok s' → Sound s' ∧
    Rewritten (versions s) (versions s')
  markCapsuleRevoked : ∀ {s s' input}, Sound s → K.markCapsuleRevoked s input = .ok s' →
    Sound s' ∧ versions s' = versions s
  active_setPrimary : ∀ {s s' id keyId v}, K.setPrimary s id keyId = .ok s' → v ∈ versions s →
    v.status = .active → ∃ v' ∈ versions s', v.Kept v' ∧ v'.status = .active
  active_markScopeRevoked : ∀ {s s' id v}, K.markScopeRevoked s id = .ok s' → v ∈ versions s →
    v.scopeId ≠ id → v.status = .active → ∃ v' ∈ versions s', v.Kept v' ∧ v'.status = .active
  mem_of_primary : ∀ {s id v}, K.primaryVersion s id = .ok (some v) →
    v ∈ versions s ∧ v.scopeId = id
  mem_of_get : ∀ {s keyId id v}, K.getByKeyId s keyId id = .ok (some v) →
    v ∈ versions s ∧ v.keyId = keyId ∧ v.scopeId = id
  get_of_mem : ∀ {s v}, Sound s → v ∈ versions s →
    (∀ w ∈ versions s, w.keyId = v.keyId → w.scopeId = v.scopeId) →
      ∃ w, K.getByKeyId s v.keyId v.scopeId = .ok (some w)
  mem_of_list : ∀ {s id vs v}, K.listVersions s id = .ok vs → v ∈ vs →
    v ∈ versions s ∧ v.scopeId = id
  issues : ∀ {id vs}, K.listVersions K.empty id = .ok vs →
    vs = [] ∧ K.primaryVersion K.empty id = .ok none ∧
      ∀ v : StoredKmsKeyVersion, v.scopeId = id → validText v.keyId →
        ∃ s s', K.putVersion K.empty v = .ok s ∧ K.setPrimary s id v.keyId = .ok s' ∧
          ∀ w ∈ versions s', w.status = v.status

namespace InMemoryKmsKeyStore

theorem find?_reverse_isSome {vs : List StoredKmsKeyVersion} {v : StoredKmsKeyVersion}
    (hv : v ∈ vs) : ∃ w, vs.reverse.find? (fun w => w.keyId = v.keyId) = some w := by
  rw [← Option.isSome_iff_exists, List.find?_isSome]
  exact ⟨v, List.mem_reverse.mpr hv, by simp⟩

end InMemoryKmsKeyStore

def inMemoryView : KeyStoreView inMemory where
  versions := InMemoryKmsKeyStore.versions
  Sound _ := True
  sound_empty := trivial
  versions_empty := rfl
  putVersion := by
    rintro s _ v - ⟨⟩
    exact ⟨trivial, .inl rfl⟩
  setPrimary := by
    rintro s _ id keyId - ⟨⟩
    refine ⟨trivial, rewritten_map (fun v => ?_) s.versions⟩
    split
    · exact ⟨rfl, rfl, rfl, rfl, fun h => h⟩
    · exact .refl v
  markScopeRevoked := by
    rintro s _ id - ⟨⟩
    refine ⟨trivial, rewritten_map (fun v => ?_) s.versions⟩
    split
    · exact ⟨rfl, rfl, rfl, rfl, fun _ => rfl⟩
    · exact .refl v
  markCapsuleRevoked := by
    rintro s _ input - ⟨⟩
    exact ⟨trivial, rfl⟩
  active_setPrimary := by
    rintro s _ id keyId v ⟨⟩ hv ha
    refine ⟨_, List.mem_map_of_mem hv, ?_, ?_⟩
    · split
      · exact ⟨rfl, rfl, rfl, rfl, fun h => h⟩
      · exact .refl v
    · split <;> exact ha
  active_markScopeRevoked := by
    rintro s _ id v ⟨⟩ hv hid ha
    refine ⟨v, List.mem_map.mpr ⟨v, hv, ?_⟩, .refl v, ha⟩
    simp [ofScope, hid]
  mem_of_primary := by
    intro s id v h
    have hm := List.mem_of_find?_eq_some (Except.ok.inj h)
    obtain ⟨hv, hid⟩ := List.mem_filter.mp hm
    exact ⟨hv, of_decide_eq_true hid⟩
  mem_of_get := by
    intro s keyId id v h
    obtain ⟨hf, hid⟩ := Option.filter_eq_some_iff.mp (Except.ok.inj h)
    have hk := List.find?_some hf
    exact ⟨List.mem_reverse.mp (List.mem_of_find?_eq_some hf), of_decide_eq_true hk,
      of_decide_eq_true hid⟩
  get_of_mem := by
    rintro s v - hv huniq
    obtain ⟨w, hw⟩ := InMemoryKmsKeyStore.find?_reverse_isSome hv
    have hk := List.find?_some hw
    have hid := huniq w (List.mem_reverse.mp (List.mem_of_find?_eq_some hw))
      (of_decide_eq_true hk)
    refine ⟨w, congrArg Except.ok ?_⟩
    rw [InMemoryKmsKeyStore.getByKeyId, hw]
    simp [ofScope, hid]
  mem_of_list := by
    rintro s id vs v ⟨⟩ hv
    obtain ⟨hv, hid⟩ := List.mem_filter.mp hv
    exact ⟨hv, of_decide_eq_true hid⟩
  issues := by
    rintro id vs ⟨⟩
    refine ⟨rfl, rfl, fun v _ _ => ⟨_, _, rfl, rfl, fun w hw => ?_⟩⟩
    obtain ⟨u, hu, rfl⟩ := List.mem_map.mp hw
    rw [List.mem_singleton.mp hu]
    split <;> rfl

namespace PostgresSelfHostedKmsKeyStore

/-- The versions of the rows. -/
def allVersions (s : PostgresSelfHostedKmsKeyStore) : List StoredKmsKeyVersion :=
  s.versions.rows.map KeyVersionRow.version

/-- A row is of the tenant of its scope, and its texts are texts of the database. -/
def Sound (s : PostgresSelfHostedKmsKeyStore) : Prop :=
  ∀ r ∈ s.versions.rows, tenantFromScopeId r.version.scopeId = .ok r.tenantId ∧
    validText r.version.scopeId ∧ validText r.version.keyId

variable {s s' : PostgresSelfHostedKmsKeyStore} {id keyId : String} {v : StoredKmsKeyVersion}

theorem ok_of_requireText {texts : List String} {u : Unit} (h : requireText texts = .ok u) :
    ∀ text ∈ texts, validText text := by
  unfold requireText at h
  split at h
  · next hv => exact fun text ht => List.all_eq_true.mp hv text ht
  · cases h

/-- What an operation has checked when it answers. -/
theorem ok_of_checked {α : Type} {texts : List String} {f : String → Except KeyStoreError α} {a : α}
    (h : (do let tenantId ← tenantFromScopeId id; requireText texts; f tenantId) = .ok a) :
    ∃ tenantId, tenantFromScopeId id = .ok tenantId ∧ (∀ text ∈ texts, validText text) ∧
      f tenantId = .ok a := by
  simp only [bind, Except.bind] at h
  cases ht : tenantFromScopeId id with
  | error error => simp [ht] at h
  | ok tenantId =>
    cases hv : requireText texts with
    | error error => simp [ht, hv] at h
    | ok u =>
      simp only [ht, hv] at h
      exact ⟨tenantId, rfl, ok_of_requireText hv, h⟩

theorem checked_ok {α : Type} {texts : List String} {f : String → Except KeyStoreError α}
    {tenantId : String} (ht : tenantFromScopeId id = .ok tenantId)
    (hv : ∀ text ∈ texts, validText text) :
    (do let tenantId ← tenantFromScopeId id; requireText texts; f tenantId) = f tenantId := by
  have hr : requireText texts = .ok () := if_pos (List.all_eq_true.mpr hv)
  simp only [bind, Except.bind, ht, hr]

/-- Rows that are rewritten with their scopes and their keys. -/
theorem rewrite_rows {f : KeyVersionRow → KeyVersionRow} {p : KeyVersionRow → Bool}
    (hk : ∀ r, (f r).key = r.key) (hs : s.Sound)
    (hf : ∀ r : KeyVersionRow, r.version.Kept (f r).version) :
    let s' : PostgresSelfHostedKmsKeyStore := { s with versions := s.versions.update p f hk }
    s'.Sound ∧ Rewritten s.allVersions s'.allVersions := by
  constructor
  · intro r hr
    obtain ⟨r₀, hr₀, rfl⟩ := List.mem_map.mp hr
    split
    · have hkey := hk r₀
      simp only [KeyVersionRow.key, Prod.mk.injEq] at hkey
      obtain ⟨ht, hid, hkid⟩ := hkey
      rw [ht, hid, hkid]
      exact hs r₀ hr₀
    · exact hs r₀ hr₀
  · simp only [Rewritten, allVersions, Table.update, List.map_map, List.forall₂_map_left_iff,
      List.forall₂_map_right_iff, List.forall₂_same, Function.comp_apply]
    intro r _
    split
    · exact hf r
    · exact .refl r.version

theorem sound_putVersion (hs : s.Sound) (h : s.putVersion v = .ok s') : s'.Sound ∧
    (s'.allVersions = s.allVersions ++ [v] ∨
      s'.allVersions = s.allVersions ∧ ∃ w ∈ s.allVersions, w.keyId = v.keyId) := by
  obtain ⟨tenantId, ht, hv, h⟩ := ok_of_checked h
  by_cases hg : (s.versions.get (KeyVersionRow.mk tenantId v).key).isSome
  · cases (if_pos hg).symm.trans h
    obtain ⟨r, hr⟩ := Option.isSome_iff_exists.mp hg
    have hk := Table.key_of_get hr
    simp only [KeyVersionRow.key, Prod.mk.injEq] at hk
    exact ⟨hs, .inr ⟨rfl, r.version, List.mem_map_of_mem (Table.mem_of_get hr), hk.2.2⟩⟩
  · replace h := (if_neg hg).symm.trans h
    split at h
    · cases h
    · cases hi : s.versions.insert ⟨tenantId, v⟩ with
      | none => exact absurd (Table.insert_eq_none_iff.mp hi) hg
      | some versions =>
        cases h
        have hrows := Table.rows_of_insert hi
        simp only [Sound, allVersions, hi, Option.getD_some, hrows]
        constructor
        · intro r hr
          rcases List.mem_append.mp hr with hr | hr
          · exact hs r hr
          · rw [List.mem_singleton.mp hr]
            exact ⟨ht, hv _ (by simp), hv _ (by simp)⟩
        · left
          simp

theorem sound_setPrimary (hs : s.Sound) (h : s.setPrimary id keyId = .ok s') :
    s'.Sound ∧ Rewritten s.allVersions s'.allVersions := by
  obtain ⟨tenantId, -, -, h⟩ := ok_of_checked h
  cases h
  have hd : ∀ r : KeyVersionRow, r.version.Kept r.demote.version :=
    fun r => ⟨rfl, rfl, rfl, rfl, fun h => h⟩
  have hp : ∀ r : KeyVersionRow, r.version.Kept r.promote.version :=
    fun r => ⟨rfl, rfl, rfl, rfl, fun h => h⟩
  obtain ⟨hs₁, hr₁⟩ := rewrite_rows (p := KeyVersionRow.inScope tenantId id)
    KeyVersionRow.key_demote hs hd
  obtain ⟨hs₂, hr₂⟩ := rewrite_rows (p := fun r => r.inScope tenantId id &&
    decide (r.version.keyId = keyId) && decide (r.version.status = .active))
    KeyVersionRow.key_promote hs₁ hp
  exact ⟨hs₂, Rewritten.trans hr₁ hr₂⟩

theorem sound_markScopeRevoked (hs : s.Sound) (h : s.markScopeRevoked id = .ok s') :
    s'.Sound ∧ Rewritten s.allVersions s'.allVersions := by
  obtain ⟨tenantId, -, -, h⟩ := ok_of_checked h
  cases h
  exact rewrite_rows _ hs fun r => ⟨rfl, rfl, rfl, rfl, fun _ => rfl⟩

theorem active_update {f : KeyVersionRow → KeyVersionRow} {p : KeyVersionRow → Bool}
    (hk : ∀ r, (f r).key = r.key) (hf : ∀ r : KeyVersionRow, r.version.Kept (f r).version)
    (hst : ∀ r : KeyVersionRow, (f r).version.status = r.version.status) (hv : v ∈ s.allVersions)
    (ha : v.status = .active) :
    ∃ v' ∈ allVersions { s with versions := s.versions.update p f hk },
      v.Kept v' ∧ v'.status = .active := by
  obtain ⟨r, hr, rfl⟩ := List.mem_map.mp hv
  refine ⟨_, List.mem_map_of_mem (List.mem_map_of_mem hr), ?_, ?_⟩
  · split
    · exact hf r
    · exact .refl r.version
  · split
    · exact (hst r).trans ha
    · exact ha

theorem active_setPrimary (h : s.setPrimary id keyId = .ok s') (hv : v ∈ s.allVersions)
    (ha : v.status = .active) : ∃ v' ∈ s'.allVersions, v.Kept v' ∧ v'.status = .active := by
  obtain ⟨tenantId, -, -, h⟩ := ok_of_checked h
  cases h
  have hd : ∀ r : KeyVersionRow, r.version.Kept r.demote.version :=
    fun r => ⟨rfl, rfl, rfl, rfl, fun h => h⟩
  have hp : ∀ r : KeyVersionRow, r.version.Kept r.promote.version :=
    fun r => ⟨rfl, rfl, rfl, rfl, fun h => h⟩
  obtain ⟨w, hw, hk, ha⟩ := active_update (p := KeyVersionRow.inScope tenantId id)
    KeyVersionRow.key_demote hd (fun _ => rfl) hv ha
  obtain ⟨v', hv', hk', ha'⟩ := active_update (p := fun r => r.inScope tenantId id &&
    decide (r.version.keyId = keyId) && decide (r.version.status = .active))
    KeyVersionRow.key_promote hp (fun _ => rfl) hw ha
  exact ⟨v', hv', hk.trans hk', ha'⟩

theorem active_markScopeRevoked (h : s.markScopeRevoked id = .ok s') (hv : v ∈ s.allVersions)
    (hid : v.scopeId ≠ id) (ha : v.status = .active) :
    ∃ v' ∈ s'.allVersions, v.Kept v' ∧ v'.status = .active := by
  obtain ⟨tenantId, -, -, h⟩ := ok_of_checked h
  cases h
  obtain ⟨r, hr, rfl⟩ := List.mem_map.mp hv
  have hin : ¬ r.inScope tenantId id = true := by
    simp [KeyVersionRow.inScope, ofScope, hid]
  refine ⟨r.version, List.mem_map.mpr ⟨r, ?_, rfl⟩, .refl _, ha⟩
  exact List.mem_map.mpr ⟨r, hr, if_neg hin⟩

theorem sound_markCapsuleRevoked {input : CapsuleRevocation} (hs : s.Sound)
    (h : s.markCapsuleRevoked input = .ok s') : s'.Sound ∧ s'.allVersions = s.allVersions := by
  unfold markCapsuleRevoked at h
  split at h
  · cases h
  · obtain ⟨tenantId, -, -, h⟩ := ok_of_checked h
    cases h
    exact ⟨hs, rfl⟩

theorem mem_of_scopeRows {tenantId : String} (h : v ∈ s.scopeRows tenantId id) :
    v ∈ s.allVersions ∧ v.scopeId = id := by
  obtain ⟨r, hr, rfl⟩ := List.mem_map.mp h
  obtain ⟨hr, hin⟩ := List.mem_filter.mp hr
  simp only [KeyVersionRow.inScope, ofScope, Bool.and_eq_true, decide_eq_true_eq] at hin
  exact ⟨List.mem_map_of_mem hr, hin.2⟩

theorem mem_of_primaryVersion (h : s.primaryVersion id = .ok (some v)) :
    v ∈ s.allVersions ∧ v.scopeId = id := by
  obtain ⟨tenantId, -, -, h⟩ := ok_of_checked h
  have hm := List.argmax_mem (Option.mem_def.mpr (Except.ok.inj h))
  exact mem_of_scopeRows (List.mem_of_mem_filter hm)

theorem mem_of_getByKeyId (h : s.getByKeyId keyId id = .ok (some v)) :
    v ∈ s.allVersions ∧ v.keyId = keyId ∧ v.scopeId = id := by
  obtain ⟨tenantId, -, -, h⟩ := ok_of_checked h
  obtain ⟨r, hr, rfl⟩ := Option.map_eq_some_iff.mp (Except.ok.inj h)
  have hk := Table.key_of_get hr
  simp only [KeyVersionRow.key, Prod.mk.injEq] at hk
  exact ⟨List.mem_map_of_mem (Table.mem_of_get hr), hk.2.2, hk.2.1⟩

theorem getByKeyId_of_mem (hs : s.Sound) (hv : v ∈ s.allVersions) :
    ∃ w, s.getByKeyId v.keyId v.scopeId = .ok (some w) := by
  obtain ⟨r, hr, rfl⟩ := List.mem_map.mp hv
  obtain ⟨ht, hid, hk⟩ := hs r hr
  have hg : s.versions.get r.key = some r := Table.get_eq_some_iff.mpr ⟨hr, rfl⟩
  refine ⟨r.version, ?_⟩
  rw [getByKeyId, checked_ok ht (by simp [hid, hk])]
  change Except.ok ((s.versions.get r.key).map KeyVersionRow.version) = _
  rw [hg, Option.map_some]

theorem mem_of_listVersions {vs : List StoredKmsKeyVersion} (h : s.listVersions id = .ok vs)
    (hv : v ∈ vs) : v ∈ s.allVersions ∧ v.scopeId = id := by
  obtain ⟨tenantId, -, -, h⟩ := ok_of_checked h
  cases h
  exact mem_of_scopeRows ((List.perm_insertionSort _ _).mem_iff.mp hv)

theorem issues_empty {vs : List StoredKmsKeyVersion} (h : postgres.empty.listVersions id = .ok vs) :
    vs = [] ∧ postgres.empty.primaryVersion id = .ok none ∧
      ∀ v : StoredKmsKeyVersion, v.scopeId = id → validText v.keyId →
        ∃ s s', postgres.empty.putVersion v = .ok s ∧ s.setPrimary id v.keyId = .ok s' ∧
          ∀ w ∈ s'.allVersions, w.status = v.status := by
  obtain ⟨tenantId, ht, hid, h⟩ := ok_of_checked h
  refine ⟨(Except.ok.inj h).symm, ?_, ?_⟩
  · rw [primaryVersion, checked_ok ht hid]
    rfl
  · rintro v rfl hk
    have hid := hid v.scopeId (by simp)
    refine ⟨_, _, checked_ok ht (by simp [hid, hk]), checked_ok ht (by simp [hid, hk]), ?_⟩
    intro w hw
    obtain ⟨r, hr, rfl⟩ := List.mem_map.mp hw
    obtain ⟨r', hr', rfl⟩ := List.mem_map.mp hr
    obtain ⟨r₀, hr₀, rfl⟩ := List.mem_map.mp hr'
    rw [List.mem_singleton.mp hr₀]
    split <;> split <;> rfl

end PostgresSelfHostedKmsKeyStore

def postgresView : KeyStoreView postgres where
  versions := PostgresSelfHostedKmsKeyStore.allVersions
  Sound := PostgresSelfHostedKmsKeyStore.Sound
  sound_empty := fun _ hr => absurd hr List.not_mem_nil
  versions_empty := rfl
  putVersion := PostgresSelfHostedKmsKeyStore.sound_putVersion
  setPrimary := PostgresSelfHostedKmsKeyStore.sound_setPrimary
  markScopeRevoked := PostgresSelfHostedKmsKeyStore.sound_markScopeRevoked
  markCapsuleRevoked := PostgresSelfHostedKmsKeyStore.sound_markCapsuleRevoked
  active_setPrimary := PostgresSelfHostedKmsKeyStore.active_setPrimary
  active_markScopeRevoked := PostgresSelfHostedKmsKeyStore.active_markScopeRevoked
  mem_of_primary := PostgresSelfHostedKmsKeyStore.mem_of_primaryVersion
  mem_of_get := PostgresSelfHostedKmsKeyStore.mem_of_getByKeyId
  get_of_mem hs hv _ := PostgresSelfHostedKmsKeyStore.getByKeyId_of_mem hs hv
  mem_of_list := PostgresSelfHostedKmsKeyStore.mem_of_listVersions
  issues := PostgresSelfHostedKmsKeyStore.issues_empty

/-! ## Versions over a run -/

/-- Key pairs are fresh and their identifiers are digests; what is wrapped for a pair is unwrapped
with the private key of no other. -/
structure KmsEnvironment.Ideal (E : KmsEnvironment) : Prop where
  keyId_injective : Function.Injective fun n => (E.generateKeyPair n).keyId
  keyId_valid : ∀ n, validText (E.generateKeyPair n).keyId
  decrypt_only : ∀ m m' n dek dek', E.privateDecrypt (E.generateKeyPair m').sealedPrivateKey
    (E.publicEncrypt (E.generateKeyPair m).publicKeyPem n dek) = some dek' → m' = m

namespace KeyStoreView

variable {σ : Type} {K : SelfHostedKmsKeyStore σ} (V : KeyStoreView K) {E : KmsEnvironment}
  {s s' s'' : KmsState σ}

/-- Versions are rewritten, after at most one fresh version is appended. -/
structure Advances (E : KmsEnvironment) (s s' : KmsState σ) : Prop where
  sound : V.Sound s'.store
  draws : s.draws ≤ s'.draws
  versions : Rewritten (V.versions s.store) (V.versions s'.store) ∨
    ∃ id revision, s.draws < s'.draws ∧ Rewritten
      (V.versions s.store ++ [SelfHostedKms.keyVersion E s.draws id revision])
      (V.versions s'.store)

variable {V}

theorem Advances.refl (hs : V.Sound s.store) : V.Advances E s s :=
  ⟨hs, Nat.le_refl _, .inl (.refl _)⟩

/-- A version that is put and rewritten after. -/
theorem advances_putVersion {store store' : σ} {id : String} {revision : ℕ} {available : Bool}
    (hs : V.Sound s.store)
    (hp : K.putVersion s.store (SelfHostedKms.keyVersion E s.draws id revision) = .ok store)
    (hs' : V.Sound store') (hr : Rewritten (V.versions store) (V.versions store')) :
    V.Advances E s ⟨store', available, s.draws + 1⟩ := by
  refine ⟨hs', Nat.le_succ _, ?_⟩
  rcases (V.putVersion hs hp).2 with hv | ⟨hv, -⟩
  · exact .inr ⟨id, revision, Nat.lt_succ_self _, hv ▸ hr⟩
  · exact .inl (hv ▸ hr)

theorem advances_createVersion (hs : V.Sound s.store) (scope : EvidenceKeyScope) :
    V.Advances E s (SelfHostedKms.createVersion K E s scope).2 := by
  simp only [SelfHostedKms.createVersion]
  split
  · exact .refl hs
  · split
    · exact ⟨hs, Nat.le_succ _, .inl (.refl _)⟩
    · next store hp =>
      have hs₁ := (V.putVersion hs hp).1
      split
      · exact advances_putVersion hs hp hs₁ (.refl _)
      · next primary hm =>
        obtain ⟨hs₂, hr⟩ := V.setPrimary hs₁ hm
        exact advances_putVersion hs hp hs₂ hr

theorem snd_profileOf (n : ℕ) (scope : EvidenceKeyScope)
    (r : SelfHostedKms.Outcome σ StoredKmsKeyVersion) :
    (SelfHostedKms.profileOf E n scope r).2 = r.2 := by
  unfold SelfHostedKms.profileOf
  split <;> rfl

theorem snd_wrapDek (s : KmsState σ) (profile : EvidenceEncryptionProfile) (dek : List UInt8) :
    (SelfHostedKms.wrapDek K E s profile dek).2 = s ∨
      (SelfHostedKms.wrapDek K E s profile dek).2 = { s with draws := s.draws + 1 } := by
  simp only [SelfHostedKms.wrapDek]
  repeat' split
  all_goals simp

theorem advances_ensurePrimaryVersion (hs : V.Sound s.store) (scope : EvidenceKeyScope) :
    V.Advances E s (SelfHostedKms.ensurePrimaryVersion K E s scope).2 := by
  unfold SelfHostedKms.ensurePrimaryVersion
  split
  · exact .refl hs
  · exact .refl hs
  · exact advances_createVersion hs scope

theorem advances_update {r : Except KeyStoreError σ} (hs : V.Sound s.store)
    (h : ∀ store, r = .ok store → V.Sound store ∧
      Rewritten (V.versions s.store) (V.versions store)) :
    V.Advances E s (SelfHostedKms.update s r).2 := by
  cases r with
  | error error => exact .refl hs
  | ok store =>
    obtain ⟨hs', hr⟩ := h store rfl
    exact ⟨hs', Nat.le_refl _, .inl hr⟩

theorem advances_markCapsuleRevoked (hs : V.Sound s.store) (input : CapsuleRevocation) :
    V.Advances E s (SelfHostedKms.update s (K.markCapsuleRevoked s.store input)).2 := by
  apply advances_update hs
  intro store h
  obtain ⟨hs', hv⟩ := V.markCapsuleRevoked hs h
  exact ⟨hs', hv ▸ (.refl _)⟩

/-- Every operation of the key management advances the versions. -/
theorem advances_step (hs : V.Sound s.store) (op : KmsOp) : V.Advances E s (s.step K E op) := by
  cases op with
  | setAvailable available => exact ⟨hs, Nat.le_refl _, .inl (.refl _)⟩
  | encryptionProfile scope =>
    simp only [KmsState.step, SelfHostedKms.encryptionProfile]
    split
    · exact .refl hs
    · rw [snd_profileOf]
      exact advances_ensurePrimaryVersion hs scope
  | rotate scope =>
    simp only [KmsState.step, SelfHostedKms.rotate]
    split
    · exact .refl hs
    · rw [snd_profileOf]
      exact advances_createVersion hs scope
  | wrapDek profile dek =>
    rw [KmsState.step]
    rcases snd_wrapDek (K := K) (E := E) s profile dek with h | h
    · rw [h]
      exact .refl hs
    · rw [h]
      exact ⟨hs, Nat.le_succ _, .inl (.refl _)⟩
  | revoke capsuleId reason =>
    simp only [KmsState.step, SelfHostedKms.revoke]
    split
    · exact .refl hs
    · exact advances_markCapsuleRevoked hs _
  | revokeForScope scope capsuleId reason =>
    simp only [KmsState.step, SelfHostedKms.revokeForScope]
    split
    · exact .refl hs
    · exact advances_markCapsuleRevoked hs _
  | revokeScope scope =>
    simp only [KmsState.step, SelfHostedKms.revokeScope]
    split
    · exact .refl hs
    · exact advances_update hs fun store h => V.markScopeRevoked hs h

/-- Every version has a key pair of its own. -/
structure Drawn (V : KeyStoreView K) (E : KmsEnvironment) (s : KmsState σ) : Prop where
  sound : V.Sound s.store
  drawn : ∀ v ∈ V.versions s.store, ∃ n < s.draws, v.keyId = (E.generateKeyPair n).keyId ∧
    v.publicKeyPem = (E.generateKeyPair n).publicKeyPem ∧
    v.sealedPrivateKey = (E.generateKeyPair n).sealedPrivateKey
  nodup : ((V.versions s.store).map StoredKmsKeyVersion.keyId).Nodup

theorem drawn_start : Drawn V E (SelfHostedKms.start K) where
  sound := V.sound_empty
  drawn := by simp [SelfHostedKms.start, V.versions_empty]
  nodup := by simp [SelfHostedKms.start, V.versions_empty]

/-- The versions that an advance rewrites have key pairs of their own. -/
theorem Drawn.of_rewritten {vs : List StoredKmsKeyVersion} (hs : V.Sound s'.store)
    (hr : Rewritten vs (V.versions s'.store))
    (hd : ∀ v ∈ vs, ∃ n < s'.draws, v.keyId = (E.generateKeyPair n).keyId ∧
      v.publicKeyPem = (E.generateKeyPair n).publicKeyPem ∧
      v.sealedPrivateKey = (E.generateKeyPair n).sealedPrivateKey)
    (hn : (vs.map StoredKmsKeyVersion.keyId).Nodup) : Drawn V E s' where
  sound := hs
  drawn v' hv' := by
    obtain ⟨v, hv, hk⟩ := hr.exists_before hv'
    rw [hk.keyId, hk.publicKeyPem, hk.sealedPrivateKey]
    exact hd v hv
  nodup := by
    rw [hr.map_keyId]
    exact hn

theorem Drawn.advance (hE : E.Ideal) (h : Drawn V E s) (ha : V.Advances E s s') :
    Drawn V E s' := by
  have hd : ∀ v ∈ V.versions s.store, ∃ n < s'.draws, v.keyId = (E.generateKeyPair n).keyId ∧
      v.publicKeyPem = (E.generateKeyPair n).publicKeyPem ∧
      v.sealedPrivateKey = (E.generateKeyPair n).sealedPrivateKey := by
    intro v hv
    obtain ⟨n, hn, hm⟩ := h.drawn v hv
    exact ⟨n, Nat.lt_of_lt_of_le hn ha.draws, hm⟩
  rcases ha.versions with hr | ⟨id, revision, hlt, hr⟩
  · exact .of_rewritten ha.sound hr hd h.nodup
  · refine .of_rewritten ha.sound hr ?_ ?_
    · intro v hv
      rcases List.mem_append.mp hv with hv | hv
      · exact hd v hv
      · rw [List.mem_singleton.mp hv]
        exact ⟨s.draws, hlt, rfl, rfl, rfl⟩
    · rw [List.map_append, List.nodup_append]
      refine ⟨h.nodup, List.nodup_singleton _, ?_⟩
      intro keyId hk fresh hf he
      obtain ⟨v, hv, rfl⟩ := List.mem_map.mp hk
      obtain ⟨n, hn, hkn, -⟩ := h.drawn v hv
      rw [List.map_singleton, List.mem_singleton] at hf
      rw [hkn, hf] at he
      exact absurd (hE.keyId_injective he) (Nat.ne_of_lt hn)

theorem Drawn.runs (hE : E.Ideal) (h : Drawn V E s) (ops : List KmsOp) :
    Drawn V E (s.runs K E ops) := by
  induction ops generalizing s with
  | nil => exact h
  | cons op ops ih => exact ih (h.advance hE (advances_step h.sound op))

theorem drawn_after (hE : E.Ideal) (ops : List KmsOp) : Drawn V E (KmsState.after K E ops) :=
  drawn_start.runs hE ops

/-- A version with the key is the version. -/
theorem Drawn.eq_of_keyId {v w : StoredKmsKeyVersion} (h : Drawn V E s)
    (hv : v ∈ V.versions s.store) (hw : w ∈ V.versions s.store) (hk : v.keyId = w.keyId) : v = w :=
  List.inj_on_of_nodup_map h.nodup hv hw hk

theorem exists_after_advance {v : StoredKmsKeyVersion} (ha : V.Advances E s s')
    (hv : v ∈ V.versions s.store) : ∃ v' ∈ V.versions s'.store, v.Kept v' := by
  rcases ha.versions with hr | ⟨id, revision, -, hr⟩
  · exact hr.exists_after hv
  · exact hr.exists_after (List.mem_append_left _ hv)

/-- A version stays in the store, in later forms. -/
theorem exists_after_runs (ops : List KmsOp) :
    ∀ {s : KmsState σ} {v : StoredKmsKeyVersion}, V.Sound s.store → v ∈ V.versions s.store →
      ∃ v' ∈ V.versions (s.runs K E ops).store, v.Kept v' := by
  induction ops with
  | nil => exact fun {_ v} _ hv => ⟨v, hv, .refl v⟩
  | cons op ops ih =>
    intro s v hs hv
    have ha := advances_step (E := E) hs op
    obtain ⟨u, hu, hk⟩ := exists_after_advance ha hv
    obtain ⟨w, hw, hk'⟩ := ih ha.sound hu
    exact ⟨w, hw, hk.trans hk'⟩

/-! ## Active versions -/

variable {v : StoredKmsKeyVersion}

theorem active_createVersion (scope : EvidenceKeyScope) (hs : V.Sound s.store)
    (hv : v ∈ V.versions s.store) (ha : v.status = .active) :
    ∃ v' ∈ V.versions (SelfHostedKms.createVersion K E s scope).2.store,
      v.Kept v' ∧ v'.status = .active := by
  simp only [SelfHostedKms.createVersion]
  split
  · exact ⟨v, hv, .refl v, ha⟩
  · split
    · exact ⟨v, hv, .refl v, ha⟩
    · next store hp =>
      have hm : v ∈ V.versions store := by
        rcases (V.putVersion hs hp).2 with he | ⟨he, -⟩
        · exact he ▸ List.mem_append_left _ hv
        · exact he ▸ hv
      split
      · exact ⟨v, hm, .refl v, ha⟩
      · next primary hq => exact V.active_setPrimary hq hm ha

/-- An active version stays active until its scope is revoked. -/
theorem active_step (op : KmsOp) (hs : V.Sound s.store) (hv : v ∈ V.versions s.store)
    (ha : v.status = .active) (hop : ∀ scope, op = .revokeScope scope → v.scopeId ≠ scopeId scope) :
    ∃ v' ∈ V.versions (s.step K E op).store, v.Kept v' ∧ v'.status = .active := by
  have stays : ∃ v' ∈ V.versions s.store, v.Kept v' ∧ v'.status = .active :=
    ⟨v, hv, .refl v, ha⟩
  have marks : ∀ input, ∃ v' ∈ V.versions (SelfHostedKms.update s
      (K.markCapsuleRevoked s.store input)).2.store, v.Kept v' ∧ v'.status = .active := by
    intro input
    cases hm : K.markCapsuleRevoked s.store input with
    | error error => exact stays
    | ok store => exact ⟨v, (V.markCapsuleRevoked hs hm).2 ▸ hv, .refl v, ha⟩
  cases op with
  | setAvailable available => exact stays
  | encryptionProfile scope =>
    simp only [KmsState.step, SelfHostedKms.encryptionProfile]
    split
    · exact stays
    · rw [snd_profileOf]
      unfold SelfHostedKms.ensurePrimaryVersion
      split
      · exact stays
      · exact stays
      · exact active_createVersion scope hs hv ha
  | rotate scope =>
    simp only [KmsState.step, SelfHostedKms.rotate]
    split
    · exact stays
    · rw [snd_profileOf]
      exact active_createVersion scope hs hv ha
  | wrapDek profile dek =>
    rw [KmsState.step]
    rcases snd_wrapDek (K := K) (E := E) s profile dek with h | h
    · rw [h]
      exact stays
    · rw [h]
      exact stays
  | revoke capsuleId reason =>
    simp only [KmsState.step, SelfHostedKms.revoke]
    split
    · exact stays
    · exact marks _
  | revokeForScope scope capsuleId reason =>
    simp only [KmsState.step, SelfHostedKms.revokeForScope]
    split
    · exact stays
    · exact marks _
  | revokeScope scope =>
    simp only [KmsState.step, SelfHostedKms.revokeScope]
    split
    · exact stays
    · cases hm : K.markScopeRevoked s.store (scopeId scope) with
      | error error => exact stays
      | ok store => exact V.active_markScopeRevoked hm hv (hop scope rfl) ha

theorem active_runs (ops : List KmsOp) :
    ∀ {s : KmsState σ} {v : StoredKmsKeyVersion}, V.Sound s.store → v ∈ V.versions s.store →
      v.status = .active → (∀ scope, .revokeScope scope ∈ ops → v.scopeId ≠ scopeId scope) →
      ∃ v' ∈ V.versions (s.runs K E ops).store, v.Kept v' ∧ v'.status = .active := by
  induction ops with
  | nil => exact fun {_ v} _ hv ha _ => ⟨v, hv, .refl v, ha⟩
  | cons op ops ih =>
    intro s v hs hv ha hop
    obtain ⟨u, hu, hk, ha⟩ := active_step (E := E) op hs hv ha fun scope he =>
      hop scope (he ▸ List.mem_cons_self)
    obtain ⟨w, hw, hk', ha'⟩ := ih (advances_step hs op).sound hu ha fun scope hm =>
      hk.scopeId ▸ hop scope (List.mem_cons_of_mem _ hm)
    exact ⟨w, hw, hk.trans hk', ha'⟩

end KeyStoreView

end Qualigence.Kms
