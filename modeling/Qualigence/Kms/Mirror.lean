import Qualigence.Kms.Isolation

/-! # Two stores of wrapping keys

The rows mirror the versions in memory when they are the same versions in the same order, with the
flags of the active ones only, and the same capsules are revoked. Then the two stores give the same
answers, and each write of one is a write of the other.
-/

namespace Qualigence.Kms

open Evidence Foundation

/-! ## Answers -/

/-- The Postgres store takes the identifier of a scope. -/
def Taken (id : String) : Prop := (∃ tenantId, tenantFromScopeId id = .ok tenantId) ∧ validText id

/-- The capsule has no revocation in another scope of the tenant. -/
def KeepsScope (p : PostgresSelfHostedKmsKeyStore) (id capsuleId : String) : Prop :=
  ∀ r ∈ p.revocations.rows, tenantFromScopeId id = .ok r.tenantId → r.capsuleId = capsuleId →
    r.scopeId = id

/-- The flag of a version that is revoked does not tell anything. -/
def StoredKmsKeyVersion.shown (v : StoredKmsKeyVersion) : StoredKmsKeyVersion :=
  { v with isPrimary := v.isPrimary && decide (v.status = .active) }

@[simp] theorem StoredKmsKeyVersion.shown_scopeId (v : StoredKmsKeyVersion) :
    v.shown.scopeId = v.scopeId := rfl

@[simp] theorem StoredKmsKeyVersion.shown_keyId (v : StoredKmsKeyVersion) :
    v.shown.keyId = v.keyId := rfl

@[simp] theorem StoredKmsKeyVersion.shown_comp_shown :
    StoredKmsKeyVersion.shown ∘ StoredKmsKeyVersion.shown = StoredKmsKeyVersion.shown := by
  funext v
  cases h : v.status <;> simp [StoredKmsKeyVersion.shown, h]

/-- Two stores give the same answers, as far as `view` tells versions apart. -/
structure SameAnswers (view : StoredKmsKeyVersion → StoredKmsKeyVersion)
    (m : InMemoryKmsKeyStore) (p : PostgresSelfHostedKmsKeyStore) : Prop where
  listVersions : ∀ id, Taken id →
    (postgres.listVersions p id).map (List.map view) =
      (inMemory.listVersions m id).map (List.map view)
  getByKeyId : ∀ keyId id, Taken id → validText keyId →
    (postgres.getByKeyId p keyId id).map (Option.map view) =
      (inMemory.getByKeyId m keyId id).map (Option.map view)
  primaryVersion : ∀ id, Taken id → postgres.primaryVersion p id = inMemory.primaryVersion m id
  isCapsuleRevoked : ∀ id capsuleId, Taken id → validText capsuleId →
    postgres.isCapsuleRevoked p id capsuleId = inMemory.isCapsuleRevoked m id capsuleId

/-- Versions with keys of their own, whose revisions count the versions of their scope. -/
structure Ordered (vs : List StoredKmsKeyVersion) : Prop where
  keyIds : (vs.map StoredKmsKeyVersion.keyId).Nodup
  revisions : ∀ id, (vs.filter (ofScope id)).map StoredKmsKeyVersion.revision =
    List.range' 1 (vs.filter (ofScope id)).length

theorem filter_ofScope_map {f : StoredKmsKeyVersion → StoredKmsKeyVersion}
    (hf : ∀ v, (f v).scopeId = v.scopeId) (vs : List StoredKmsKeyVersion) (id : String) :
    (vs.map f).filter (ofScope id) = (vs.filter (ofScope id)).map f := by
  rw [List.filter_map]
  congr 1
  apply List.filter_congr
  intro v _
  simp [ofScope, hf]

theorem Ordered.map {vs : List StoredKmsKeyVersion} (h : Ordered vs)
    {f : StoredKmsKeyVersion → StoredKmsKeyVersion} (hid : ∀ v, (f v).scopeId = v.scopeId)
    (hk : ∀ v, (f v).keyId = v.keyId) (hr : ∀ v, (f v).revision = v.revision) :
    Ordered (vs.map f) where
  keyIds := by
    have hc : StoredKmsKeyVersion.keyId ∘ f = StoredKmsKeyVersion.keyId := funext hk
    rw [List.map_map, hc]
    exact h.keyIds
  revisions id := by
    have hc : StoredKmsKeyVersion.revision ∘ f = StoredKmsKeyVersion.revision := funext hr
    rw [filter_ofScope_map hid, List.length_map, List.map_map, hc]
    exact h.revisions id

theorem Ordered.append {vs : List StoredKmsKeyVersion} (h : Ordered vs) {v : StoredKmsKeyVersion}
    (hk : ∀ w ∈ vs, w.keyId ≠ v.keyId)
    (hr : v.revision = (vs.filter (ofScope v.scopeId)).length + 1) : Ordered (vs ++ [v]) where
  keyIds := by
    rw [List.map_append, List.map_singleton, List.nodup_append]
    refine ⟨h.keyIds, List.nodup_singleton _, ?_⟩
    intro k hm k' hm' he
    obtain ⟨w, hw, rfl⟩ := List.mem_map.mp hm
    rw [List.mem_singleton.mp hm'] at he
    exact hk w hw he
  revisions id := by
    rw [List.filter_append, List.map_append, List.length_append, h.revisions id]
    by_cases hs : v.scopeId = id
    · subst hs
      simp only [ofScope, decide_true, List.filter_cons_of_pos, List.filter_nil,
        List.map_singleton, List.length_singleton]
      rw [hr, List.range'_1_concat, Nat.add_comm 1]
    · simp [ofScope, hs]

/-- The rows are the versions in memory, with the flags of the active ones, and the revocations. -/
structure Mirrors (m : InMemoryKmsKeyStore) (p : PostgresSelfHostedKmsKeyStore) : Prop where
  sound : p.Sound
  versions : p.allVersions = m.versions.map StoredKmsKeyVersion.shown
  ordered : Ordered m.versions
  primary : ∀ v ∈ m.versions, ∀ w ∈ m.versions, v.scopeId = w.scopeId → v.isPrimary →
    w.isPrimary → v = w
  tenants : ∀ r ∈ p.revocations.rows, tenantFromScopeId r.scopeId = .ok r.tenantId
  revoked : ∀ id capsuleId, validText id →
    (InMemoryKmsKeyStore.revocationKey (some id) capsuleId ∈ m.revokedCapsules ↔
      ∃ r ∈ p.revocations.rows, r.scopeId = id ∧ r.capsuleId = capsuleId)
  unscoped : ∀ capsuleId, InMemoryKmsKeyStore.revocationKey none capsuleId ∉ m.revokedCapsules

namespace Mirrors

variable {m : InMemoryKmsKeyStore} {p : PostgresSelfHostedKmsKeyStore} {id : String}
  {tenantId : String}

theorem inScope_iff (h : p.Sound) (ht : tenantFromScopeId id = .ok tenantId) {r : KeyVersionRow}
    (hr : r ∈ p.versions.rows) : r.inScope tenantId id = ofScope id r.version := by
  rw [KeyVersionRow.inScope, Bool.eq_iff_iff, Bool.and_eq_true, and_iff_right_iff_imp]
  intro hid
  have hs := (h r hr).1
  rw [of_decide_eq_true hid, ht] at hs
  exact decide_eq_true (Except.ok.inj hs).symm

theorem scopeRows_eq (h : Mirrors m p) (ht : tenantFromScopeId id = .ok tenantId) :
    p.scopeRows tenantId id = (m.listVersions id).map StoredKmsKeyVersion.shown := by
  have hf : p.versions.rows.filter (KeyVersionRow.inScope tenantId id) =
      p.versions.rows.filter (ofScope id ∘ KeyVersionRow.version) :=
    List.filter_congr fun r hr => inScope_iff h.sound ht hr
  rw [PostgresSelfHostedKmsKeyStore.scopeRows, hf, ← List.filter_map]
  change p.allVersions.filter (ofScope id) = _
  rw [h.versions, List.filter_map]
  rfl

theorem listVersions_eq (h : Mirrors m p) (hid : Taken id) :
    p.listVersions id = .ok ((m.listVersions id).map StoredKmsKeyVersion.shown) := by
  obtain ⟨⟨tenantId, ht⟩, hv⟩ := hid
  rw [PostgresSelfHostedKmsKeyStore.listVersions,
    PostgresSelfHostedKmsKeyStore.checked_ok ht (by simpa using hv), h.scopeRows_eq ht]
  congr 1
  apply List.Pairwise.insertionSort_eq
  have hr : ((m.listVersions id).map StoredKmsKeyVersion.revision).Pairwise (· ≤ ·) := by
    rw [InMemoryKmsKeyStore.listVersions, h.ordered.revisions id]
    exact (List.pairwise_lt_range' 1 Nat.one_pos).imp Nat.le_of_lt
  rw [List.pairwise_map] at hr ⊢
  exact hr

/-- In memory, a version is found by its key and its scope. -/
theorem getByKeyId_eq_some_iff (h : Mirrors m p) {keyId : String} {v : StoredKmsKeyVersion} :
    m.getByKeyId keyId id = some v ↔ v ∈ m.versions ∧ v.keyId = keyId ∧ v.scopeId = id := by
  constructor
  · intro hg
    exact inMemoryView.mem_of_get (congrArg Except.ok hg)
  · rintro ⟨hv, rfl, rfl⟩
    have huniq : ∀ w ∈ m.versions, w.keyId = v.keyId → w = v :=
      fun w hw hk => List.inj_on_of_nodup_map h.ordered.keyIds hw hv hk
    obtain ⟨w, hw⟩ := inMemoryView.get_of_mem trivial hv fun w hw hk => by rw [huniq w hw hk]
    obtain ⟨hwm, hwk, -⟩ := inMemoryView.mem_of_get hw
    rw [← huniq w hwm hwk]
    rw [huniq w hwm hwk] at hw ⊢
    exact Except.ok.inj hw

theorem getByKeyId_eq (h : Mirrors m p) (hid : Taken id) {keyId : String}
    (hk : validText keyId) : p.getByKeyId keyId id =
      .ok ((m.getByKeyId keyId id).map StoredKmsKeyVersion.shown) := by
  obtain ⟨⟨tenantId, ht⟩, hv⟩ := hid
  rw [PostgresSelfHostedKmsKeyStore.getByKeyId,
    PostgresSelfHostedKmsKeyStore.checked_ok ht (by simp [hv, hk])]
  congr 1
  apply Option.ext
  intro w
  rw [Option.map_eq_some_iff, Option.map_eq_some_iff]
  constructor
  · rintro ⟨r, hr, rfl⟩
    have hrow := Table.mem_of_get hr
    have hkey := Table.key_of_get hr
    simp only [KeyVersionRow.key, Prod.mk.injEq] at hkey
    have hmem : r.version ∈ p.allVersions := List.mem_map_of_mem hrow
    rw [h.versions] at hmem
    obtain ⟨v, hvm, hvr⟩ := List.mem_map.mp hmem
    refine ⟨v, h.getByKeyId_eq_some_iff.mpr ⟨hvm, ?_, ?_⟩, hvr⟩
    · rw [← hkey.2.2, ← hvr]
      rfl
    · rw [← hkey.2.1, ← hvr]
      rfl
  · rintro ⟨v, hg, rfl⟩
    obtain ⟨hvm, rfl, rfl⟩ := h.getByKeyId_eq_some_iff.mp hg
    have hmem : v.shown ∈ p.allVersions := by
      rw [h.versions]
      exact List.mem_map_of_mem hvm
    obtain ⟨r, hr, hrv⟩ := List.mem_map.mp hmem
    refine ⟨r, Table.get_eq_some_iff.mpr ⟨hr, ?_⟩, hrv⟩
    have hs := (h.sound r hr).1
    rw [hrv] at hs
    have hte : r.tenantId = tenantId := Except.ok.inj (hs.symm.trans ht)
    rw [KeyVersionRow.key, hte, hrv]
    rfl

theorem shown_of_active {v : StoredKmsKeyVersion} (h : v.status = .active) : v.shown = v := by
  cases v
  simp only at h
  simp [StoredKmsKeyVersion.shown, h]

/-- An active version with the flag. -/
def current (v : StoredKmsKeyVersion) : Bool := v.isPrimary && decide (v.status = .active)

theorem filter_shown (vs : List StoredKmsKeyVersion) :
    (vs.map StoredKmsKeyVersion.shown).filter
      (fun v => decide (v.status = .active) && v.isPrimary) = vs.filter current := by
  induction vs with
  | nil => rfl
  | cons v vs ih =>
    by_cases hs : v.status = .active
    · rw [List.map_cons, shown_of_active hs, List.filter_cons, List.filter_cons, ih]
      simp [current, hs]
    · rw [List.map_cons, List.filter_cons, List.filter_cons, ih]
      simp [current, StoredKmsKeyVersion.shown, hs]

theorem eq_of_current (h : Mirrors m p) {v w : StoredKmsKeyVersion}
    (hv : v ∈ (m.listVersions id).filter current) (hw : w ∈ (m.listVersions id).filter current) :
    v = w := by
  obtain ⟨hvl, hvp⟩ := List.mem_filter.mp hv
  obtain ⟨hwl, hwp⟩ := List.mem_filter.mp hw
  obtain ⟨hvm, hvs⟩ := List.mem_filter.mp hvl
  obtain ⟨hwm, hws⟩ := List.mem_filter.mp hwl
  rw [current, Bool.and_eq_true] at hvp hwp
  refine h.primary v hvm w hwm ?_ hvp.1 hwp.1
  rw [of_decide_eq_true hvs, of_decide_eq_true hws]

/-- The first of at most one is the one with the highest revision. -/
theorem argmax_eq_head? {l : List StoredKmsKeyVersion} (hn : l.Nodup)
    (h : ∀ v ∈ l, ∀ w ∈ l, v = w) : l.argmax StoredKmsKeyVersion.revision = l.head? := by
  cases l with
  | nil => rfl
  | cons v rest =>
    cases rest with
    | nil => rfl
    | cons w rest =>
      have he := h v (by simp) w (by simp)
      rw [he] at hn
      simp at hn

theorem primaryVersion_eq (h : Mirrors m p) (hid : Taken id) :
    p.primaryVersion id = .ok (m.primaryVersion id) := by
  obtain ⟨⟨tenantId, ht⟩, hv⟩ := hid
  rw [PostgresSelfHostedKmsKeyStore.primaryVersion,
    PostgresSelfHostedKmsKeyStore.checked_ok ht (by simpa using hv), h.scopeRows_eq ht,
    filter_shown]
  congr 1
  have hnodup : ((m.listVersions id).filter current).Nodup :=
    ((h.ordered.keyIds.of_map _).filter _).filter _
  rw [argmax_eq_head? hnodup fun v hv w hw => h.eq_of_current hv hw, List.head?_filter]
  rfl

theorem isCapsuleRevoked_eq (h : Mirrors m p) (hid : Taken id) {capsuleId : String}
    (hc : validText capsuleId) :
    p.isCapsuleRevoked id capsuleId = .ok (m.isCapsuleRevoked id capsuleId) := by
  obtain ⟨⟨tenantId, ht⟩, hv⟩ := hid
  rw [PostgresSelfHostedKmsKeyStore.isCapsuleRevoked,
    PostgresSelfHostedKmsKeyStore.checked_ok ht (by simp [hv, hc])]
  congr 1
  rw [InMemoryKmsKeyStore.isCapsuleRevoked, decide_eq_false (h.unscoped capsuleId), Bool.or_false,
    Bool.eq_iff_iff, decide_eq_true_eq, h.revoked id capsuleId hv, List.any_eq_true]
  constructor
  · rintro ⟨r, hr, he⟩
    exact ⟨r, hr, (of_decide_eq_true he).2⟩
  · rintro ⟨r, hr, rfl, rfl⟩
    have hte := Except.ok.inj ((h.tenants r hr).symm.trans ht)
    exact ⟨r, hr, decide_eq_true ⟨hte, rfl, rfl⟩⟩

/-- The rows answer as the memory does. -/
theorem sameAnswers (h : Mirrors m p) : SameAnswers StoredKmsKeyVersion.shown m p where
  listVersions id hid := by
    change (p.listVersions id).map _ = .ok ((m.listVersions id).map StoredKmsKeyVersion.shown)
    rw [h.listVersions_eq hid]
    simp [Except.map]
  getByKeyId keyId id hid hk := by
    change (p.getByKeyId keyId id).map _ =
      .ok ((m.getByKeyId keyId id).map StoredKmsKeyVersion.shown)
    rw [h.getByKeyId_eq hid hk]
    simp [Except.map]
  primaryVersion id hid := h.primaryVersion_eq hid
  isCapsuleRevoked id capsuleId hid hc := h.isCapsuleRevoked_eq hid hc

/-! ### Writes -/

theorem empty : Mirrors inMemory.empty postgres.empty where
  sound := postgresView.sound_empty
  versions := rfl
  ordered := ⟨List.nodup_nil, fun _ => rfl⟩
  primary _ hv := absurd hv List.not_mem_nil
  tenants _ hr := absurd hr List.not_mem_nil
  revoked _ _ _ := ⟨fun h => absurd h List.not_mem_nil,
    fun ⟨_, hr, _⟩ => absurd hr List.not_mem_nil⟩
  unscoped _ := List.not_mem_nil

/-- A rewrite of rows and a rewrite of versions that do the same. -/
theorem versions_rewrite {g : KeyVersionRow → KeyVersionRow}
    {h e k : StoredKmsKeyVersion → StoredKmsKeyVersion} {rows : List KeyVersionRow}
    {vs : List StoredKmsKeyVersion} (hrows : rows.map KeyVersionRow.version = vs.map e)
    (hg : ∀ r ∈ rows, (g r).version = h r.version) (he : ∀ v ∈ vs, h (e v) = k v) :
    (rows.map g).map KeyVersionRow.version = vs.map k := by
  calc (rows.map g).map KeyVersionRow.version
      = rows.map (h ∘ KeyVersionRow.version) := by
        rw [List.map_map]
        exact List.map_congr_left hg
    _ = (vs.map e).map h := by rw [← List.map_map, hrows]
    _ = vs.map k := by
        rw [List.map_map]
        exact List.map_congr_left he

theorem markScopeRevoked (h : Mirrors m p) {p' : PostgresSelfHostedKmsKeyStore}
    (hp : p.markScopeRevoked id = .ok p') : Mirrors (m.markScopeRevoked id) p' := by
  obtain ⟨hs, -⟩ := PostgresSelfHostedKmsKeyStore.sound_markScopeRevoked h.sound hp
  obtain ⟨tenantId, ht, -, hp⟩ := PostgresSelfHostedKmsKeyStore.ok_of_checked hp
  cases hp
  let f := fun v : StoredKmsKeyVersion => if ofScope id v then v.revoke else v
  have hid : ∀ v, (f v).scopeId = v.scopeId := by
    intro v
    simp only [f]
    split <;> rfl
  have hk : ∀ v, (f v).keyId = v.keyId := by
    intro v
    simp only [f]
    split <;> rfl
  have hrev : ∀ v, (f v).revision = v.revision := by
    intro v
    simp only [f]
    split <;> rfl
  have hprim : ∀ v, (f v).isPrimary = v.isPrimary := by
    intro v
    simp only [f]
    split <;> rfl
  refine { h with
    sound := hs
    versions := ?_
    ordered := h.ordered.map hid hk hrev
    primary := ?_ }
  · change _ = (m.versions.map f).map StoredKmsKeyVersion.shown
    rw [List.map_map]
    refine versions_rewrite (h := fun v => if ofScope id v then
      { v with status := .revoked, isPrimary := false } else v) h.versions ?_ ?_
    · intro r hr
      rw [inScope_iff h.sound ht hr]
      split <;> rfl
    · intro v _
      simp only [f, Function.comp_apply]
      change (if ofScope id v then _ else _) = _
      split <;> simp [StoredKmsKeyVersion.shown, StoredKmsKeyVersion.revoke]
  · intro v hv w hw hs hvp hwp
    obtain ⟨v₀, hv₀, rfl⟩ := List.mem_map.mp hv
    obtain ⟨w₀, hw₀, rfl⟩ := List.mem_map.mp hw
    have he := h.primary v₀ hv₀ w₀ hw₀ (by rw [← hid v₀, ← hid w₀]; exact hs)
      (by rw [← hprim v₀]; exact hvp) (by rw [← hprim w₀]; exact hwp)
    rw [he]

/-- A version with a fresh key and the next revision is inserted. -/
theorem putVersion_ok (h : Mirrors m p) {v : StoredKmsKeyVersion} (hid : Taken v.scopeId)
    (hv : validText v.keyId) (hk : ∀ w ∈ m.versions, w.keyId ≠ v.keyId)
    (hr : v.revision = (m.listVersions v.scopeId).length + 1) :
    ∃ p', p.putVersion v = .ok p' ∧ p'.allVersions = p.allVersions ++ [v] ∧
      p'.revocations = p.revocations := by
  obtain ⟨⟨tenantId, ht⟩, hvid⟩ := hid
  have hkeys : ∀ w ∈ p.allVersions, w.keyId ≠ v.keyId := by
    intro w hw
    rw [h.versions] at hw
    obtain ⟨u, hu, rfl⟩ := List.mem_map.mp hw
    exact hk u hu
  have hget : p.versions.get (KeyVersionRow.mk tenantId v).key = none := by
    rw [Table.get_eq_none_iff]
    intro r hr he
    simp only [KeyVersionRow.key, Prod.mk.injEq] at he
    exact hkeys r.version (List.mem_map_of_mem hr) he.2.2
  have hrevision : p.versions.rows.any (fun r => r.inScope tenantId v.scopeId &&
      decide (r.version.revision = v.revision)) = false := by
    rw [List.any_eq_false]
    intro r hrow hin
    rw [Bool.and_eq_true, inScope_iff h.sound ht hrow] at hin
    have hmem : r.version ∈ p.allVersions := List.mem_map_of_mem hrow
    rw [h.versions] at hmem
    obtain ⟨u, hu, hur⟩ := List.mem_map.mp hmem
    have hul : u ∈ m.listVersions v.scopeId := by
      refine List.mem_filter.mpr ⟨hu, ?_⟩
      have hin := hin.1
      rw [← hur] at hin
      exact hin
    have hm : u.revision ∈ (m.listVersions v.scopeId).map StoredKmsKeyVersion.revision :=
      List.mem_map_of_mem hul
    rw [InMemoryKmsKeyStore.listVersions, h.ordered.revisions, List.mem_range'_1] at hm
    have he : u.revision = v.revision := by
      have hin := of_decide_eq_true hin.2
      rw [← hur] at hin
      exact hin
    rw [InMemoryKmsKeyStore.listVersions] at hr
    omega
  cases hi : p.versions.insert ⟨tenantId, v⟩ with
  | none =>
    have hsome := Table.insert_eq_none_iff.mp hi
    rw [hget] at hsome
    simp at hsome
  | some versions =>
    refine ⟨{ p with versions }, ?_, ?_, rfl⟩
    · rw [PostgresSelfHostedKmsKeyStore.putVersion,
        PostgresSelfHostedKmsKeyStore.checked_ok ht (by simp [hvid, hv])]
      simp [hget, hrevision, hi]
    · simp [PostgresSelfHostedKmsKeyStore.allVersions, Table.rows_of_insert hi]

/-- The version that is put becomes the only primary of its scope. -/
theorem setPrimary (h : Mirrors m p) {v : StoredKmsKeyVersion} (hid : Taken v.scopeId)
    (hv : validText v.keyId) (ha : v.status = .active) (hk : ∀ w ∈ m.versions, w.keyId ≠ v.keyId)
    (hr : v.revision = (m.listVersions v.scopeId).length + 1) :
    ∃ p₁ p₂, p.putVersion v = .ok p₁ ∧ p₁.setPrimary v.scopeId v.keyId = .ok p₂ ∧
      Mirrors ((m.putVersion v).setPrimary v.scopeId v.keyId) p₂ := by
  obtain ⟨p₁, hput, hall, hrevs⟩ := h.putVersion_ok hid hv hk hr
  obtain ⟨⟨tenantId, ht⟩, hvid⟩ := hid
  obtain ⟨p₂, hset⟩ : ∃ p₂, p₁.setPrimary v.scopeId v.keyId = .ok p₂ :=
    ⟨_, PostgresSelfHostedKmsKeyStore.checked_ok ht (by simp [hvid, hv])⟩
  refine ⟨p₁, p₂, hput, hset, ?_⟩
  have hs₁ := (PostgresSelfHostedKmsKeyStore.sound_putVersion h.sound hput).1
  have hs₂ := (PostgresSelfHostedKmsKeyStore.sound_setPrimary hs₁ hset).1
  have hordered := h.ordered.append hk hr
  let f := fun w : StoredKmsKeyVersion =>
    if ofScope v.scopeId w then { w with isPrimary := decide (w.keyId = v.keyId) } else w
  have hid : ∀ w, (f w).scopeId = w.scopeId := by
    intro w
    simp only [f]
    split <;> rfl
  have hkf : ∀ w, (f w).keyId = w.keyId := by
    intro w
    simp only [f]
    split <;> rfl
  have hrf : ∀ w, (f w).revision = w.revision := by
    intro w
    simp only [f]
    split <;> rfl
  have hall' : p₁.versions.rows.map KeyVersionRow.version =
      (m.versions ++ [v]).map StoredKmsKeyVersion.shown := by
    change p₁.allVersions = _
    rw [hall, h.versions, List.map_append, List.map_singleton, shown_of_active ha]
  have hprimary : ∀ w, w.scopeId = v.scopeId → (f w).isPrimary = decide (w.keyId = v.keyId) := by
    intro w hw
    simp [f, ofScope, hw]
  have hother : ∀ w, w.scopeId ≠ v.scopeId → f w = w := by
    intro w hw
    simp [f, ofScope, hw]
  obtain ⟨tenantId', ht', -, hp₂⟩ := PostgresSelfHostedKmsKeyStore.ok_of_checked hset
  cases ht.symm.trans ht'
  cases hp₂
  refine
    { sound := hs₂
      versions := ?_
      ordered := hordered.map hid hkf hrf
      primary := ?_
      tenants := hrevs ▸ h.tenants
      revoked := hrevs ▸ h.revoked
      unscoped := h.unscoped }
  · change (List.map _ (List.map _ p₁.versions.rows)).map KeyVersionRow.version =
      ((m.versions ++ [v]).map f).map StoredKmsKeyVersion.shown
    rw [List.map_map (l := m.versions ++ [v])]
    have hsd := (PostgresSelfHostedKmsKeyStore.rewrite_rows
      (p := KeyVersionRow.inScope tenantId v.scopeId) KeyVersionRow.key_demote hs₁
      fun r => ⟨rfl, rfl, rfl, rfl, fun h => h⟩).1
    have hdemoted := versions_rewrite
      (g := fun r => if r.inScope tenantId v.scopeId then r.demote else r)
      (h := fun w => if ofScope v.scopeId w then { w with isPrimary := false } else w)
      (k := fun w => if ofScope v.scopeId w then { w with isPrimary := false } else w.shown)
      hall' ?_ ?_
    · refine versions_rewrite (h := fun w => if ofScope v.scopeId w && decide (w.keyId = v.keyId) &&
        decide (w.status = .active) then { w with isPrimary := true } else w) hdemoted ?_ ?_
      · intro r hr
        simp only [inScope_iff hsd ht hr]
        split <;> rfl
      · intro w _
        by_cases hin : ofScope v.scopeId w
        · by_cases hk : w.keyId = v.keyId <;> cases hw : w.status <;>
            simp_all [f, ofScope, StoredKmsKeyVersion.shown]
        · have hin' : ofScope v.scopeId w.shown = false := Bool.eq_false_of_not_eq_true hin
          simp [f, hin, hin']
    · intro r hr
      rw [inScope_iff hs₁ ht hr]
      split <;> rfl
    · intro w hw
      change (if ofScope v.scopeId w then _ else _) = _
      split <;> rfl
  · intro u hu w hw hs hup hwp
    obtain ⟨u₀, hu₀, rfl⟩ := List.mem_map.mp hu
    obtain ⟨w₀, hw₀, rfl⟩ := List.mem_map.mp hw
    rw [hid, hid] at hs
    by_cases hin : u₀.scopeId = v.scopeId
    · rw [hprimary u₀ hin, decide_eq_true_eq] at hup
      rw [hprimary w₀ (hs.symm.trans hin), decide_eq_true_eq] at hwp
      rw [List.inj_on_of_nodup_map hordered.keyIds hu₀ hw₀ (hup.trans hwp.symm)]
    · have hmem : ∀ x ∈ m.versions ++ [v], x.scopeId ≠ v.scopeId → x ∈ m.versions := by
        intro x hx hne
        rcases List.mem_append.mp hx with hx | hx
        · exact hx
        · exact absurd (congrArg _ (List.mem_singleton.mp hx)) hne
      have hin' : w₀.scopeId ≠ v.scopeId := fun he => hin (hs.trans he)
      have hu := hother u₀ hin
      have hw := hother w₀ hin'
      change (f u₀).isPrimary at hup
      change (f w₀).isPrimary at hwp
      rw [hu] at hup
      rw [hw] at hwp
      exact congrArg f (h.primary u₀ (hmem u₀ hu₀ hin) w₀ (hmem w₀ hw₀ hin') hs hup hwp)

/-- What stands before the first separator. -/
theorem append_separator_inj {α : Type} [DecidableEq α] {separator : α} {x x' y y' : List α}
    (hx : separator ∉ x) (hx' : separator ∉ x') :
    x ++ separator :: y = x' ++ separator :: y' ↔ x = x' ∧ y = y' := by
  constructor
  · intro h
    have hs := congrArg (List.splitOn separator) h
    rw [List.splitOn_append_cons_self_of_not_mem hx,
      List.splitOn_append_cons_self_of_not_mem hx'] at hs
    obtain rfl := (List.cons.inj hs).1
    exact ⟨rfl, (List.cons.inj (List.append_cancel_left h)).2⟩
  · rintro ⟨rfl, rfl⟩
    rfl

theorem revocationKey_inj {scope scope' : Option String} {capsuleId capsuleId' : String}
    (hv : validText (scope.getD "*")) (hv' : validText (scope'.getD "*")) :
    InMemoryKmsKeyStore.revocationKey scope capsuleId =
        InMemoryKmsKeyStore.revocationKey scope' capsuleId' ↔
      scope.getD "*" = scope'.getD "*" ∧ capsuleId = capsuleId' := by
  simp only [validText, decide_eq_true_eq] at hv hv'
  rw [← String.toList_inj, ← String.toList_inj, ← String.toList_inj]
  simp only [InMemoryKmsKeyStore.revocationKey, String.toList_append, String.toList_singleton,
    List.append_assoc, List.singleton_append]
  exact append_separator_inj hv hv'

theorem scopeId_ne_star (scope : EvidenceKeyScope) : scopeId scope ≠ "*" := by
  intro h
  have hc := count_scopeId scope
  rw [h] at hc
  have hstar : ("*".toList.count '|') = 0 := by decide
  omega

/-- The revocations of the capsules after one more. -/
theorem revocations_markCapsuleRevoked {p' : PostgresSelfHostedKmsKeyStore} {capsuleId reason
    occurredAt : String} (hm : KeepsScope p id capsuleId)
    (hp : p.markCapsuleRevoked ⟨some id, capsuleId, reason, occurredAt⟩ = .ok p')
    (htenants : ∀ r ∈ p.revocations.rows, tenantFromScopeId r.scopeId = .ok r.tenantId) :
    (∀ r ∈ p'.revocations.rows, tenantFromScopeId r.scopeId = .ok r.tenantId) ∧
      ∀ id' capsuleId', (∃ r ∈ p'.revocations.rows, r.scopeId = id' ∧ r.capsuleId = capsuleId') ↔
        (∃ r ∈ p.revocations.rows, r.scopeId = id' ∧ r.capsuleId = capsuleId') ∨
          id = id' ∧ capsuleId = capsuleId' := by
  obtain ⟨tenantId, ht, -, hp⟩ := PostgresSelfHostedKmsKeyStore.ok_of_checked hp
  cases hp
  cases hi : p.revocations.insert ⟨tenantId, capsuleId, id, reason, occurredAt⟩ with
  | some revocations =>
    simp only [Option.getD_some, Table.rows_of_insert hi, List.mem_append, List.mem_singleton]
    constructor
    · rintro r (hr | rfl)
      · exact htenants r hr
      · exact ht
    · intro id' capsuleId'
      constructor
      · rintro ⟨r, hr | rfl, he⟩
        · exact .inl ⟨r, hr, he⟩
        · exact .inr he
      · rintro (⟨r, hr, he⟩ | he)
        · exact ⟨r, .inl hr, he⟩
        · exact ⟨_, .inr rfl, he⟩
  | none =>
    -- the row of the capsule is of the same scope, so nothing but its texts is written
    have hkept : ∀ r ∈ p.revocations.rows, r.key = (tenantId, capsuleId) → r.scopeId = id := by
      intro r hr hk
      simp only [CapsuleRevocationRow.key, Prod.mk.injEq] at hk
      exact hm r hr (hk.1 ▸ ht) hk.2
    have hrow : ∀ r ∈ p.revocations.rows,
        let row : CapsuleRevocationRow := ⟨tenantId, capsuleId, id, reason, occurredAt⟩
        let r' := if decide (r.key = row.key) then r.overwrite id reason occurredAt else r
        r'.scopeId = r.scopeId ∧ r'.capsuleId = r.capsuleId ∧ r'.tenantId = r.tenantId := by
      intro r hr
      simp only [decide_eq_true_eq]
      split
      · next hk => exact ⟨(hkept r hr hk).symm, rfl, rfl⟩
      · exact ⟨rfl, rfl, rfl⟩
    simp only [Option.getD_none, Table.update, List.mem_map]
    constructor
    · rintro _ ⟨r, hr, rfl⟩
      obtain ⟨hs, -, ht⟩ := hrow r hr
      rw [hs, ht]
      exact htenants r hr
    · intro id' capsuleId'
      constructor
      · rintro ⟨_, ⟨r, hr, rfl⟩, he⟩
        obtain ⟨hs, hc, -⟩ := hrow r hr
        rw [hs, hc] at he
        exact .inl ⟨r, hr, he⟩
      · rintro (⟨r, hr, he⟩ | ⟨rfl, rfl⟩)
        · obtain ⟨hs, hc, -⟩ := hrow r hr
          exact ⟨_, ⟨r, hr, rfl⟩, by rw [hs, hc]; exact he⟩
        · have hsome := Table.insert_eq_none_iff.mp hi
          obtain ⟨r, hg⟩ := Option.isSome_iff_exists.mp hsome
          have hr := Table.mem_of_get hg
          have hk := Table.key_of_get hg
          obtain ⟨hs, hc, -⟩ := hrow r hr
          refine ⟨_, ⟨r, hr, rfl⟩, ?_⟩
          rw [hs, hc]
          exact ⟨hkept r hr hk, (Prod.mk.inj hk).2⟩

theorem markCapsuleRevoked (h : Mirrors m p) {p' : PostgresSelfHostedKmsKeyStore}
    {scope : EvidenceKeyScope} {capsuleId reason occurredAt : String}
    (hv : validText (scopeId scope)) (hm : KeepsScope p (scopeId scope) capsuleId)
    (hp : p.markCapsuleRevoked ⟨some (scopeId scope), capsuleId, reason, occurredAt⟩ = .ok p') :
    Mirrors (m.markCapsuleRevoked ⟨some (scopeId scope), capsuleId, reason, occurredAt⟩) p' := by
  obtain ⟨hs, hall⟩ := PostgresSelfHostedKmsKeyStore.sound_markCapsuleRevoked h.sound hp
  obtain ⟨htenants, hrevoked⟩ := revocations_markCapsuleRevoked hm hp h.tenants
  refine
    { sound := hs
      versions := hall.trans h.versions
      ordered := h.ordered
      primary := h.primary
      tenants := htenants
      revoked := ?_
      unscoped := ?_ }
  · intro id' capsuleId' hv'
    rw [hrevoked id' capsuleId', ← h.revoked id' capsuleId' hv']
    simp only [InMemoryKmsKeyStore.markCapsuleRevoked, List.mem_append, List.mem_singleton]
    rw [revocationKey_inj (by simpa using hv') (by simpa using hv)]
    exact or_congr_right (and_congr eq_comm eq_comm)
  · intro capsuleId' hmem
    rcases List.mem_append.mp hmem with hmem | hmem
    · exact h.unscoped capsuleId' hmem
    · have he := List.mem_singleton.mp hmem
      rw [revocationKey_inj (by decide) (by simpa using hv)] at he
      exact scopeId_ne_star scope he.1.symm

/-- A version that a store of the two finds, it finds as the other shows it. -/
theorem getByKeyId_cases (h : Mirrors m p) (keyId id : String) :
    p.getByKeyId keyId id = .ok ((m.getByKeyId keyId id).map StoredKmsKeyVersion.shown) ∨
      (∃ error, p.getByKeyId keyId id = .error error) ∧ m.getByKeyId keyId id = none := by
  cases hg : p.getByKeyId keyId id with
  | ok found =>
    obtain ⟨tenantId, ht, hv, -⟩ := PostgresSelfHostedKmsKeyStore.ok_of_checked hg
    left
    rw [← hg]
    exact h.getByKeyId_eq ⟨⟨tenantId, ht⟩, hv id (by simp)⟩ (hv keyId (by simp))
  | error error =>
    refine .inr ⟨⟨error, rfl⟩, ?_⟩
    cases hm : m.getByKeyId keyId id with
    | none => rfl
    | some v =>
      obtain ⟨hv, rfl, rfl⟩ := h.getByKeyId_eq_some_iff.mp hm
      have hmem : v.shown ∈ p.allVersions := by
        rw [h.versions]
        exact List.mem_map_of_mem hv
      obtain ⟨w, hw⟩ := PostgresSelfHostedKmsKeyStore.getByKeyId_of_mem h.sound hmem
      exact nomatch hg.symm.trans hw

end Mirrors

end Qualigence.Kms
