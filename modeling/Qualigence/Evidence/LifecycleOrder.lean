import Qualigence.Evidence.Lifecycle
import Qualigence.Foundation.Linear

/-! # The order of a deletion

A capsule is revoked when the key management has revoked the key of its latest revision and the
revocation is in the audit log. What the lifecycle state of a row says about the key management
and the audit log holds in every reachable state, whatever fails and whatever is tried again.
-/

namespace Qualigence.Evidence.Lifecycle

open Foundation LifecycleWorld

/-- What a revocation for the scope of the row tells the key management. -/
def ManifestRow.accessCheck (r : ManifestRow) (occurredAt : String) :
    EvidencePlaintextAccessCheck where
  tenantId := r.tenantId
  caseId := r.caseId
  region := r.region
  purpose := r.purpose
  policyId := r.policyId
  keyVersion := r.wrappingKeyId
  capsuleId := r.capsuleId
  occurredAt := occurredAt

/-- The revocation takes away the key of the row. -/
def KmsRevocation.Covers (r : ManifestRow) : KmsRevocation → Prop
  | .capsule capsuleId _ => capsuleId = r.capsuleId
  | .forScope input _ => input = r.accessCheck input.occurredAt

/-- The row has the greatest revision of its capsule. -/
structure IsHead (w : LifecycleWorld) (tenantId capsuleId : String) (r : ManifestRow) :
    Prop where
  mem : r ∈ w.manifests.rows
  capsule : ofCapsule tenantId capsuleId r
  greatest : ∀ r' ∈ w.manifests.rows, ofCapsule tenantId capsuleId r' → r'.revision ≤ r.revision

/-- The key of the latest revision is revoked. -/
def KmsRevoked (w : LifecycleWorld) (tenantId capsuleId : String) : Prop :=
  ∃ head, IsHead w tenantId capsuleId head ∧ ∃ rev ∈ w.revocations, rev.Covers head

/-- The audit log has an allowed operation on the capsule. -/
def Audited (w : LifecycleWorld) (tenantId capsuleId operation : String) : Prop :=
  ∃ e ∈ w.auditEvents.rows, e.tenantId = tenantId ∧ e.capsuleId = capsuleId ∧
    e.operation = operation ∧ e.decision = "allowed"

/-- The revocation is carried out and audited. -/
def Revoked (w : LifecycleWorld) (tenantId capsuleId : String) : Prop :=
  KmsRevoked w tenantId capsuleId ∧ Audited w tenantId capsuleId "revoke"

/-- The states of a revoked capsule. -/
def EvidenceLifecycleState.IsRevoked (state : EvidenceLifecycleState) : Prop :=
  state ≠ .active ∧ state ≠ .revoking

variable {O : LifecycleOracle} {w w' w'' : LifecycleWorld} {tenantId capsuleId : String}

/-! ## Later states -/

/-- How the row of a revision changes. -/
structure RowLater (r r' : ManifestRow) : Prop where
  key : r'.key = r.key
  accessCheck : ∀ occurredAt, r'.accessCheck occurredAt = r.accessCheck occurredAt
  active : r'.lifecycleState = .active → r.lifecycleState = .active

/-- Revisions neither come nor go, and nothing that was revoked or audited is forgotten. -/
structure Later (w w' : LifecycleWorld) : Prop where
  kept : ∀ r ∈ w.manifests.rows, ∃ r' ∈ w'.manifests.rows, RowLater r r'
  old : ∀ r' ∈ w'.manifests.rows, ∃ r ∈ w.manifests.rows, RowLater r r'
  revocations : ∀ rev ∈ w.revocations, rev ∈ w'.revocations
  audits : ∀ e ∈ w.auditEvents.rows, e ∈ w'.auditEvents.rows

theorem RowLater.refl (r : ManifestRow) : RowLater r r := ⟨rfl, fun _ => rfl, id⟩

theorem RowLater.trans {r r' r'' : ManifestRow} (h : RowLater r r') (h' : RowLater r' r'') :
    RowLater r r'' where
  key := h'.key.trans h.key
  accessCheck occurredAt := (h'.accessCheck occurredAt).trans (h.accessCheck occurredAt)
  active hstate := h.active (h'.active hstate)

theorem RowLater.ofCapsule {r r' : ManifestRow} (h : RowLater r r') :
    ofCapsule tenantId capsuleId r' = ofCapsule tenantId capsuleId r := by
  have hkey := h.key
  simp only [ManifestRow.key, Prod.mk.injEq] at hkey
  simp only [Lifecycle.ofCapsule, hkey.1, hkey.2.1]

theorem RowLater.revision {r r' : ManifestRow} (h : RowLater r r') :
    r'.revision = r.revision := by
  have hkey := h.key
  simp only [ManifestRow.key, Prod.mk.injEq] at hkey
  exact hkey.2.2

theorem RowLater.covers {r r' : ManifestRow} (h : RowLater r r') {rev : KmsRevocation}
    (hrev : rev.Covers r) : rev.Covers r' := by
  cases rev with
  | capsule id reason =>
    have hkey := h.key
    simp only [ManifestRow.key, Prod.mk.injEq] at hkey
    exact Eq.trans hrev hkey.2.1.symm
  | forScope input reason => exact Eq.trans hrev (h.accessCheck _).symm

theorem Later.refl (w : LifecycleWorld) : Later w w where
  kept r hr := ⟨r, hr, .refl r⟩
  old r hr := ⟨r, hr, .refl r⟩
  revocations _ := id
  audits _ := id

theorem Later.trans (h : Later w w') (h' : Later w' w'') : Later w w'' where
  kept r hr := by
    obtain ⟨r', hr', hl⟩ := h.kept r hr
    obtain ⟨r'', hr'', hl'⟩ := h'.kept r' hr'
    exact ⟨r'', hr'', hl.trans hl'⟩
  old r'' hr'' := by
    obtain ⟨r', hr', hl'⟩ := h'.old r'' hr''
    obtain ⟨r, hr, hl⟩ := h.old r' hr'
    exact ⟨r, hr, hl.trans hl'⟩
  revocations rev hrev := h'.revocations rev (h.revocations rev hrev)
  audits e he := h'.audits e (h.audits e he)

theorem IsHead.later {head : ManifestRow} (hh : IsHead w tenantId capsuleId head)
    (h : Later w w') : ∃ head', IsHead w' tenantId capsuleId head' ∧ RowLater head head' := by
  obtain ⟨head', hmem, hl⟩ := h.kept head hh.mem
  refine ⟨head', ⟨hmem, hl.ofCapsule.trans hh.capsule, fun r' hr' hof => ?_⟩, hl⟩
  obtain ⟨r, hr, hl'⟩ := h.old r' hr'
  rw [hl'.revision, hl.revision]
  exact hh.greatest r hr (hl'.ofCapsule.symm.trans hof)

theorem KmsRevoked.later (hk : KmsRevoked w tenantId capsuleId) (h : Later w w') :
    KmsRevoked w' tenantId capsuleId := by
  obtain ⟨head, hh, rev, hmem, hcovers⟩ := hk
  obtain ⟨head', hh', hl⟩ := hh.later h
  exact ⟨head', hh', rev, h.revocations rev hmem, hl.covers hcovers⟩

theorem Audited.later {operation : String} (ha : Audited w tenantId capsuleId operation)
    (h : Later w w') : Audited w' tenantId capsuleId operation := by
  obtain ⟨e, he, hevent⟩ := ha
  exact ⟨e, h.audits e he, hevent⟩

theorem Revoked.later (hr : Revoked w tenantId capsuleId) (h : Later w w') :
    Revoked w' tenantId capsuleId :=
  ⟨hr.1.later h, hr.2.later h⟩

/-! ## The invariant -/

/-- What a row says about the key management and the audit log. -/
structure RowJustified (w : LifecycleWorld) (r : ManifestRow) : Prop where
  revoked : r.lifecycleState.IsRevoked → Revoked w r.tenantId r.capsuleId
  cleared : r.ciphertext = none → Revoked w r.tenantId r.capsuleId
  deleted : r.lifecycleState = .deleted → Audited w r.tenantId r.capsuleId "delete"

variable (O) in
structure LifecycleInv (w : LifecycleWorld) : Prop where
  auditIds : ∀ e ∈ w.auditEvents.rows, ∃ k < w.steps, e.auditId = O.randomUUID k
  justified : ∀ r ∈ w.manifests.rows, RowJustified w r
  artifacts : ∀ a ∈ w.deletedArtifacts, Revoked w a.1 a.2

/-- A transition claims no more than what is done; artifacts of revoked capsules are removed. -/
def LifecyclePermitted (w : LifecycleWorld) : LifecycleOp → Prop
  | .updateLifecycle tenantId input => input.target ≠ .active ∧
      (input.target.IsRevoked → Revoked w tenantId input.capsuleId) ∧
      (input.target = .deleted → Audited w tenantId input.capsuleId "delete")
  | .deleteArtifact tenantId artifactId => Revoked w tenantId artifactId
  | _ => True

theorem RowJustified.later {r : ManifestRow} (hr : RowJustified w r) (h : Later w w') :
    RowJustified w' r where
  revoked hstate := (hr.revoked hstate).later h
  cleared hnone := (hr.cleared hnone).later h
  deleted hstate := (hr.deleted hstate).later h

theorem LifecyclePermitted.later {op : LifecycleOp} (hp : LifecyclePermitted w op)
    (h : Later w w') : LifecyclePermitted w' op := by
  cases op with
  | updateLifecycle tenantId input =>
    obtain ⟨hactive, hrevoked, hdeleted⟩ := hp
    exact ⟨hactive, fun hs => (hrevoked hs).later h, fun hs => (hdeleted hs).later h⟩
  | deleteArtifact tenantId artifactId => exact Revoked.later hp h
  | _ => trivial

/-! ## Steps -/

/-- A rewrite of rows that changes each of them into a later row makes a later state. -/
theorem later_update {p : ManifestRow → Bool} {f : ManifestRow → ManifestRow}
    {hf : ∀ r, (f r).key = r.key} (hrow : ∀ r, p r → RowLater r (f r)) :
    Later w { w with manifests := w.manifests.update p f hf } := by
  have hl : ∀ r, RowLater r (if p r then f r else r) := by
    intro r
    split
    · next hp => exact hrow r hp
    · exact .refl r
  refine ⟨fun r hr => ?_, fun r' hr' => ?_, fun _ => id, fun _ => id⟩
  · exact ⟨_, List.mem_map.mpr ⟨r, hr, rfl⟩, hl r⟩
  · obtain ⟨r, hr, rfl⟩ := List.mem_map.mp hr'
    exact ⟨r, hr, hl r⟩

/-- The columns that a transition leaves as they are, and the state it writes. -/
theorem lifecycleUpdateValues_spec (target : EvidenceLifecycleState) (occurredAt reason : String)
    (r : ManifestRow) :
    (r.lifecycleUpdateValues target occurredAt reason).lifecycleState = target ∧
    (r.lifecycleUpdateValues target occurredAt reason).ciphertext = r.ciphertext ∧
    ∀ occurredAt', (r.lifecycleUpdateValues target occurredAt reason).accessCheck occurredAt' =
      r.accessCheck occurredAt' := by
  unfold ManifestRow.lifecycleUpdateValues
  split <;> exact ⟨rfl, rfl, fun _ => rfl⟩

theorem later_updateLifecycle (tenantId : String) {input : TransitionInput}
    (hactive : input.target ≠ .active) :
    Later w (w.updateLifecycle tenantId input) := by
  refine later_update fun r _ => ⟨ManifestRow.key_lifecycleUpdateValues .., ?_, fun hstate => ?_⟩
  · exact (lifecycleUpdateValues_spec ..).2.2
  · rw [(lifecycleUpdateValues_spec ..).1] at hstate
    exact absurd hstate hactive

theorem later_clearCiphertext (tenantId capsuleId : String) :
    Later w (w.clearCiphertext tenantId capsuleId) :=
  later_update fun _ _ => ⟨rfl, fun _ => rfl, id⟩

theorem record_cases (w : LifecycleWorld) (e : EvidenceAuditEvent) :
    (∀ e', e' ∈ (w.record e).auditEvents.rows ↔ e' ∈ w.auditEvents.rows ∨
      (e' = e ∧ (w.auditEvents.get (eventKey e)).isNone)) := by
  intro e'
  unfold LifecycleWorld.record
  cases hi : w.auditEvents.insert e with
  | none =>
    have htaken := Table.insert_eq_none_iff.mp hi
    simp [Option.isSome_iff_ne_none.mp htaken]
  | some t =>
    have hfree := Table.get_eq_none_of_insert hi
    simp [Table.rows_of_insert hi, hfree]

theorem later_record (e : EvidenceAuditEvent) : Later w (w.record e) where
  kept r hr := ⟨r, hr, .refl r⟩
  old r hr := ⟨r, hr, .refl r⟩
  revocations _ := id
  audits e' he' := (record_cases w e e').mpr (.inl he')

/-- A fresh event is stored. -/
theorem mem_record (hw : LifecycleInv O w) (hfresh : Function.Injective O.randomUUID)
    {e : EvidenceAuditEvent} (he : e.auditId = O.randomUUID w.steps) :
    e ∈ (w.record e).auditEvents.rows := by
  refine (record_cases w e e).mpr (.inr ⟨rfl, ?_⟩)
  rw [Option.isNone_iff_eq_none, Table.get_eq_none_iff]
  intro e' he' hkey
  obtain ⟨k, hk, hid⟩ := hw.auditIds e' he'
  simp only [eventKey, Prod.mk.injEq] at hkey
  have := hfresh (hid.symm.trans (hkey.2.trans he))
  omega

theorem LifecycleInv.effect (op : LifecycleOp) (hp : LifecyclePermitted w op)
    (hw : LifecycleInv O w) :
    LifecycleInv O { (effect O op w).2 with steps := w.steps + 1 } ∧
    Later w { (effect O op w).2 with steps := w.steps + 1 } := by
  have hids : ∀ e ∈ w.auditEvents.rows, ∃ k < w.steps + 1, e.auditId = O.randomUUID k := by
    intro e he
    obtain ⟨k, hk, hid⟩ := hw.auditIds e he
    exact ⟨k, by omega, hid⟩
  have hsame : ∀ revocations : List KmsRevocation, (∀ rev ∈ w.revocations, rev ∈ revocations) →
      Later w { w with revocations, steps := w.steps + 1 } :=
    fun _ hrev => ⟨(Later.refl w).kept, (Later.refl w).old, hrev, fun _ => id⟩
  have hkms : ∀ revocations : List KmsRevocation, (∀ rev ∈ w.revocations, rev ∈ revocations) →
      LifecycleInv O { w with revocations, steps := w.steps + 1 } ∧
      Later w { w with revocations, steps := w.steps + 1 } := by
    intro revocations hrev
    have hl := hsame revocations hrev
    exact ⟨⟨hids, fun r hr => (hw.justified r hr).later hl,
      fun a ha => (hw.artifacts a ha).later hl⟩, hl⟩
  cases op with
  | updateLifecycle tenantId input =>
    obtain ⟨hactive, hrevoked, hdeleted⟩ := hp
    have hl : Later w { w.updateLifecycle tenantId input with steps := w.steps + 1 } := by
      have h := later_updateLifecycle (w := w) tenantId hactive
      exact ⟨h.kept, h.old, h.revocations, h.audits⟩
    refine ⟨⟨hids, fun r hr => ?_, fun a ha => (hw.artifacts a ha).later hl⟩, hl⟩
    obtain ⟨r₀, hr₀, rfl⟩ := List.mem_map.mp hr
    split
    · next hin =>
      obtain ⟨hof, -⟩ := Bool.and_eq_true .. |>.mp hin
      obtain ⟨hstate, hcipher, hcheck⟩ :=
        lifecycleUpdateValues_spec input.target input.occurredAt input.reason r₀
      obtain ⟨htenant, hcapsule⟩ := of_decide_eq_true hof
      have hid := hcheck ""
      simp only [ManifestRow.accessCheck, EvidencePlaintextAccessCheck.mk.injEq] at hid
      have htenant' := hid.1.trans htenant
      have hcapsule' := hid.2.2.2.2.2.2.1.trans hcapsule
      refine ⟨fun hs => ?_, fun hnone => ?_, fun hs => ?_⟩
      · rw [htenant', hcapsule']
        exact (hrevoked (hstate ▸ hs)).later hl
      · have hcleared := ((hw.justified r₀ hr₀).cleared (hcipher.symm.trans hnone)).later hl
        rw [htenant, hcapsule] at hcleared
        rw [htenant', hcapsule']
        exact hcleared
      · rw [htenant', hcapsule']
        exact (hdeleted (hstate ▸ hs)).later hl
    · exact (hw.justified r₀ hr₀).later hl
  | clearCiphertext tenantId capsuleId =>
    have hl : Later w { w.clearCiphertext tenantId capsuleId with steps := w.steps + 1 } := by
      have h := later_clearCiphertext (w := w) tenantId capsuleId
      exact ⟨h.kept, h.old, h.revocations, h.audits⟩
    refine ⟨⟨hids, fun r hr => ?_, fun a ha => (hw.artifacts a ha).later hl⟩, hl⟩
    obtain ⟨r₀, hr₀, rfl⟩ := List.mem_map.mp hr
    have hj := (hw.justified r₀ hr₀).later hl
    split
    · next hdel =>
      -- only the rows of a revoked capsule are being deleted
      have hstate := of_decide_eq_true (Bool.and_eq_true .. |>.mp hdel).2
      exact ⟨hj.revoked, fun _ => hj.revoked (hstate ▸ ⟨nofun, nofun⟩), hj.deleted⟩
    · exact hj
  | deleteArtifact tenantId artifactId =>
    have hl : Later w { w with
        deletedArtifacts := w.deletedArtifacts ++ [(tenantId, artifactId)]
        steps := w.steps + 1 } :=
          ⟨(Later.refl w).kept, (Later.refl w).old, fun _ => id, fun _ => id⟩
    refine ⟨⟨hids, fun r hr => (hw.justified r hr).later hl, fun a ha => ?_⟩, hl⟩
    rcases List.mem_append.mp ha with ha | ha
    · exact (hw.artifacts a ha).later hl
    · rw [List.mem_singleton.mp ha]
      exact Revoked.later hp hl
  | record tenantId record actor outcome occurredAt =>
    unfold Lifecycle.effect
    dsimp only
    split
    · next htenant =>
      have h := later_record (w := w)
        (auditEvent (O.randomUUID w.steps) record actor outcome occurredAt)
      have hl : Later w { w.record
          (auditEvent (O.randomUUID w.steps) record actor outcome occurredAt)
          with steps := w.steps + 1 } := ⟨h.kept, h.old, h.revocations, h.audits⟩
      refine ⟨⟨fun e he => ?_, fun r hr => (hw.justified r hr).later hl,
        fun a ha => (hw.artifacts a ha).later hl⟩, hl⟩
      rcases (record_cases w _ e).mp he with he | ⟨rfl, -⟩
      · exact hids e he
      · exact ⟨w.steps, by simp, rfl⟩
    · exact hkms w.revocations fun _ => id
  | kmsRevoke capsuleId reason => exact hkms _ fun rev hrev => List.mem_append_left _ hrev
  | kmsRevokeForScope input reason => exact hkms _ fun rev hrev => List.mem_append_left _ hrev
  | load _ _ => exact hkms w.revocations fun _ => id
  | latestState _ _ => exact hkms w.revocations fun _ => id
  | unrevokedRevision _ _ => exact hkms w.revocations fun _ => id

theorem LifecycleInv.handler {op : LifecycleOp} (hp : LifecyclePermitted w op)
    (hw : LifecycleInv O w) : LifecycleInv O (handler O op w).2 ∧ Later w (handler O op w).2 := by
  unfold Lifecycle.handler
  split
  · exact hw.effect _ hp
  · have hload : LifecycleInv O { w with steps := w.steps + 1 } ∧
        Later w { w with steps := w.steps + 1 } := hw.effect (.load "" "") trivial
    exact hload
  · exact hw.effect _ hp

/-- A step that is answered took effect. -/
theorem effect_of_handler {op : LifecycleOp} {r : op.Reply} (h : (handler O op w).1 = .ok r) :
    (effect O op w).1 = .ok r ∧
    (handler O op w).2 = { (effect O op w).2 with steps := w.steps + 1 } := by
  unfold handler at h ⊢
  split at h
  · exact ⟨h, rfl⟩
  · cases h
  · cases h

/-! ## Programs -/

variable (O) in
/-- What the deletions keep. -/
def lifecycleDiscipline : Program.Discipline (handler O) where
  inv := LifecycleInv O
  later := Later
  permitted := LifecyclePermitted
  later_refl := .refl
  later_trans _ _ _ := .trans
  permitted_later _ _ _ hl hp := hp.later hl
  keeps _ _ hp hs := hs.handler hp

section Programs

variable {α β : Type}

/-- The program keeps the discipline and ends in its postcondition. -/
abbrev Assured (O : LifecycleOracle) (post : LifecycleWorld → α → Prop) (p : LifecycleProgram α)
    (w : LifecycleWorld) : Prop :=
  p.Assured (lifecycleDiscipline O) (fun _ _ => True) post w

theorem assured_bind {post : LifecycleWorld → β → Prop} {M : LifecycleWorld → α → Prop}
    {p : LifecycleProgram α} {f : α → LifecycleProgram β} (hw : LifecycleInv O w)
    (hp : Assured O M p w)
    (hf : ∀ t a, LifecycleInv O t → Later w t → M t a → Assured O post (f a) t) :
    Assured O post (p.bind f) w :=
  Program.assured_bind_later hw hp hf

theorem assured_tryCatch {post : LifecycleWorld → α → Prop} {p : LifecycleProgram α}
    {f : EvidenceLifecycleError → LifecycleProgram α} (hw : LifecycleInv O w)
    (hp : Assured O post p w)
    (hf : ∀ e t, LifecycleInv O t → Later w t → Assured O post (f e) t) :
    Assured O post (p.tryCatch f) w :=
  Program.assured_tryCatch_later hw hp hf

theorem assured_perform {op : LifecycleOp} {post : LifecycleWorld → op.Reply → Prop}
    (hop : LifecyclePermitted w op)
    (hr : ∀ t r, LifecycleInv O t → Later w t → (effect O op t).1 = .ok r →
      post { (effect O op t).2 with steps := t.steps + 1 } r) :
    Assured O post (perform op) w := by
  refine Program.assured_perform hop fun t r hl ht _ hreply => ?_
  obtain ⟨heffect, hstate⟩ := effect_of_handler hreply
  rw [hstate]
  exact hr t r ht hl heffect

theorem assured_done {op : LifecycleOp} (hop : LifecyclePermitted w op) :
    Assured O (fun _ _ => True) (perform op) w :=
  assured_perform hop fun _ _ _ _ _ => trivial

/-- What a record that was loaded says about the store. -/
structure Loaded (tenantId capsuleId : String) (w : LifecycleWorld)
    (record : EvidenceLifecycleRecord) : Prop where
  tenant : record.tenantId = tenantId
  capsule : record.capsuleId = capsuleId
  head : ∃ head, IsHead w tenantId capsuleId head ∧
    ∀ occurredAt, EvidenceLifecycleService.accessCheck record occurredAt =
      head.accessCheck occurredAt
  revoked : record.state.IsRevoked → Revoked w tenantId capsuleId

theorem Loaded.later {record : EvidenceLifecycleRecord} (hr : Loaded tenantId capsuleId w record)
    (h : Later w w') : Loaded tenantId capsuleId w' record := by
  refine ⟨hr.tenant, hr.capsule, ?_, fun hstate => (hr.revoked hstate).later h⟩
  obtain ⟨head, hh, hcheck⟩ := hr.head
  obtain ⟨head', hh', hl⟩ := hh.later h
  exact ⟨head', hh', fun occurredAt => (hcheck occurredAt).trans (hl.accessCheck occurredAt).symm⟩

theorem isHead_of_latest {r : ManifestRow} (h : w.latest tenantId capsuleId = some r) :
    IsHead w tenantId capsuleId r := by
  obtain ⟨hmem, hof⟩ := List.mem_filter.mp (List.argmax_mem (Option.mem_def.mpr h))
  refine ⟨hmem, hof, fun r' hr' hof' => ?_⟩
  exact List.le_of_mem_argmax (List.mem_filter.mpr ⟨hr', hof'⟩) (Option.mem_def.mpr h)

theorem loaded_of_load {record : EvidenceLifecycleRecord} (hw : LifecycleInv O w)
    (h : w.load tenantId capsuleId = some record) : Loaded tenantId capsuleId w record := by
  obtain ⟨r, hr, rfl⟩ := Option.map_eq_some_iff.mp h
  have hh := isHead_of_latest hr
  obtain ⟨htenant, hcapsule⟩ := of_decide_eq_true hh.capsule
  refine ⟨htenant, hcapsule, ⟨r, hh, fun _ => rfl⟩, fun hstate => ?_⟩
  have hrevoked := (hw.justified r hh.mem).revoked hstate
  rwa [htenant, hcapsule] at hrevoked

theorem assured_requireRecord (hw : LifecycleInv O w) :
    Assured O (Loaded tenantId capsuleId)
      (EvidenceLifecycleService.requireRecord tenantId capsuleId) w := by
  refine assured_bind (M := fun t (record : Option EvidenceLifecycleRecord) =>
    ∀ r, record = some r → Loaded tenantId capsuleId t r) hw (assured_perform trivial ?_) ?_
  · rintro t _ ht - ⟨⟩ r hr
    have hl := (ht.effect (.load tenantId capsuleId) trivial).2
    exact (loaded_of_load ht hr).later hl
  · intro t record _ _ hrecord
    cases record with
    | none => trivial
    | some record => exact hrecord record rfl

theorem assured_advance (input : DeleteEvidenceInput) (source : List EvidenceLifecycleState)
    (target : EvidenceLifecycleState) (hw : LifecycleInv O w) (hactive : target ≠ .active)
    (hrevoked : target.IsRevoked → Revoked w input.tenantId input.capsuleId)
    (hdeleted : target = .deleted → Audited w input.tenantId input.capsuleId "delete") :
    Assured O (fun _ _ => True) (EvidenceLifecycleService.advance input source target) w := by
  have htransition : Assured O (fun _ _ => True)
      (PostgresEvidenceLifecycleStore.transition input.tenantId
        ⟨input.capsuleId, source, target, input.occurredAt, input.reason⟩) w := by
    refine assured_bind hw (assured_done ⟨hactive, hrevoked, hdeleted⟩) fun t updated ht _ _ => ?_
    dsimp only
    split
    · trivial
    · refine assured_bind ht (assured_done trivial) fun t current _ _ _ => ?_
      cases current with
      | none => trivial
      | some state =>
        dsimp only
        split <;> trivial
  refine assured_bind hw htransition fun t result _ _ _ => ?_
  cases result <;> trivial

theorem assured_audit (input : DeleteEvidenceInput) (record : EvidenceLifecycleRecord)
    (outcome : AuditOutcome) (hfresh : Function.Injective O.randomUUID) (hw : LifecycleInv O w) :
    Assured O (fun t _ => ∃ e ∈ t.auditEvents.rows, e.tenantId = record.tenantId ∧
        e.capsuleId = record.capsuleId ∧ e.operation = outcome.operation ∧
        e.decision = outcome.decision)
      (EvidenceLifecycleService.audit input record outcome) w := by
  refine assured_tryCatch hw (assured_perform trivial ?_) fun _ _ _ _ => trivial
  intro t r ht _ hreply
  unfold effect at hreply ⊢
  dsimp only at hreply ⊢
  split at hreply
  · next htenant =>
    rw [if_pos htenant]
    exact ⟨_, mem_record ht hfresh rfl, rfl, rfl, rfl, rfl⟩
  · cases hreply

variable {input : DeleteEvidenceInput} {current : EvidenceLifecycleRecord}

theorem audited_of_event {t : LifecycleWorld} {operation reasonCode : String}
    (hc : Loaded tenantId capsuleId w current)
    (h : ∃ e ∈ t.auditEvents.rows, e.tenantId = current.tenantId ∧
      e.capsuleId = current.capsuleId ∧
      e.operation = (AuditOutcome.mk operation "allowed" reasonCode).operation ∧
      e.decision = (AuditOutcome.mk operation "allowed" reasonCode).decision) :
    Audited t tenantId capsuleId operation := by
  obtain ⟨e, he, htenant, hcapsule, hoperation, hdecision⟩ := h
  exact ⟨e, he, htenant.trans hc.tenant, hcapsule.trans hc.capsule, hoperation, hdecision⟩

/-- A revocation that succeeds revokes the key of the latest revision. -/
theorem assured_revokeAtKms (hc : Loaded input.tenantId input.capsuleId w current) :
    Assured O (fun t _ => KmsRevoked t input.tenantId input.capsuleId)
      (EvidenceLifecycleService.revokeAtKms O input current) w := by
  have hkms : ∀ t (rev : KmsRevocation), Later w t →
      (∀ head, IsHead t input.tenantId input.capsuleId head →
        (∀ occurredAt, EvidenceLifecycleService.accessCheck current occurredAt =
          head.accessCheck occurredAt) → rev.Covers head) →
      KmsRevoked { t with revocations := t.revocations ++ [rev], steps := t.steps + 1 }
        input.tenantId input.capsuleId := by
    intro t rev hl hcovers
    obtain ⟨head, hh, hcheck⟩ := (hc.later hl).head
    exact ⟨head, ⟨hh.mem, hh.capsule, hh.greatest⟩, rev, by simp, hcovers head hh hcheck⟩
  unfold EvidenceLifecycleService.revokeAtKms
  cases O.kmsScoped with
  | false =>
    refine assured_perform trivial fun t r _ hl _ => hkms t _ hl fun head hh _ => ?_
    exact (of_decide_eq_true hh.capsule).2.symm
  | true =>
    refine assured_perform trivial fun t r _ hl _ => hkms t _ hl fun head _ hcheck => ?_
    exact hcheck input.occurredAt

theorem assured_revokeKey (hfresh : Function.Injective O.randomUUID) (hw : LifecycleInv O w)
    (hc : Loaded input.tenantId input.capsuleId w current) :
    Assured O (fun t _ => Revoked t input.tenantId input.capsuleId)
      (EvidenceLifecycleService.revokeKey O input current) w := by
  refine assured_bind (M := fun t _ => KmsRevoked t input.tenantId input.capsuleId) hw ?_ ?_
  · refine assured_tryCatch hw (assured_revokeAtKms hc) fun e t ht _ => ?_
    exact assured_bind ht (assured_audit _ _ _ hfresh ht) fun _ _ _ _ _ => trivial
  · intro t _ ht hl hkms
    have haudit := (assured_audit input current ⟨"revoke", "allowed", "ok"⟩ hfresh ht).frame
      (Q := fun t => KmsRevoked t input.tenantId input.capsuleId)
      (fun _ _ hl hk => hk.later hl) hkms
    exact haudit.weaken fun u _ h => ⟨h.1, audited_of_event hc h.2⟩

theorem assured_deleteCiphertext (hw : LifecycleInv O w) (hr : Revoked w tenantId capsuleId) :
    Assured O (fun _ _ => True)
      (PostgresEvidenceLifecycleStore.deleteCiphertext tenantId capsuleId) w := by
  refine assured_bind hw (assured_done hr) fun t _ ht _ _ => ?_
  refine assured_bind ht (assured_done trivial) fun t unrevoked _ _ _ => ?_
  cases unrevoked with
  | some _ => trivial
  | none => exact assured_done trivial

theorem assured_removeCiphertext (hfresh : Function.Injective O.randomUUID)
    (hw : LifecycleInv O w) (hc : Loaded input.tenantId input.capsuleId w current)
    (hr : Revoked w input.tenantId input.capsuleId) :
    Assured O (fun t _ => Audited t input.tenantId input.capsuleId "delete")
      (EvidenceLifecycleService.removeCiphertext input current) w := by
  refine assured_bind hw (M := fun _ _ => True) ?_ ?_
  · refine assured_tryCatch hw (assured_deleteCiphertext hw hr) fun e t ht hl => ?_
    refine assured_bind ht (assured_audit _ _ _ hfresh ht) fun u _ hu hl' _ => ?_
    have hadvance := assured_advance input [.deleting] .revoked hu nofun
      (fun _ => (hr.later hl).later hl') nofun
    exact assured_bind hu hadvance fun _ _ _ _ _ => trivial
  · intro t _ ht _ _
    exact (assured_audit _ _ _ hfresh ht).weaken fun u _ h => audited_of_event hc h

/-- A phase hands on a record that it has loaded. -/
theorem assured_phaseActive (hw : LifecycleInv O w)
    (hc : Loaded input.tenantId input.capsuleId w current) :
    Assured O (Loaded input.tenantId input.capsuleId)
      (EvidenceLifecycleService.phaseActive input current) w := by
  unfold EvidenceLifecycleService.phaseActive
  split
  · have hadvance := assured_advance input [.active] .revoking hw nofun
      (fun h => absurd rfl h.2) nofun
    exact assured_bind hw hadvance fun t _ ht _ _ => assured_requireRecord ht
  · exact hc

theorem assured_phaseRevoking (hfresh : Function.Injective O.randomUUID) (hw : LifecycleInv O w)
    (hc : Loaded input.tenantId input.capsuleId w current) :
    Assured O (Loaded input.tenantId input.capsuleId)
      (EvidenceLifecycleService.phaseRevoking O input current) w := by
  unfold EvidenceLifecycleService.phaseRevoking
  split
  · refine assured_bind hw (assured_revokeKey hfresh hw hc) fun t _ ht _ hr => ?_
    have hadvance := assured_advance input [.revoking] .revoked ht nofun (fun _ => hr) nofun
    exact assured_bind ht hadvance fun u _ hu _ _ => assured_requireRecord hu
  · exact hc

theorem assured_phaseRevoked (hw : LifecycleInv O w)
    (hc : Loaded input.tenantId input.capsuleId w current) :
    Assured O (Loaded input.tenantId input.capsuleId)
      (EvidenceLifecycleService.phaseRevoked input current) w := by
  unfold EvidenceLifecycleService.phaseRevoked
  split
  · next hstate =>
    have hadvance := assured_advance input [.revoked] .deleting hw nofun
      (fun _ => hc.revoked (hstate ▸ ⟨nofun, nofun⟩)) nofun
    exact assured_bind hw hadvance fun t _ ht _ _ => assured_requireRecord ht
  · exact hc

theorem assured_phaseDeleting (hfresh : Function.Injective O.randomUUID) (hw : LifecycleInv O w)
    (hc : Loaded input.tenantId input.capsuleId w current) :
    Assured O (fun _ _ => True) (EvidenceLifecycleService.phaseDeleting input current) w := by
  unfold EvidenceLifecycleService.phaseDeleting
  split
  · next hstate =>
    have hr := hc.revoked (hstate ▸ ⟨nofun, nofun⟩)
    refine assured_bind hw (assured_removeCiphertext hfresh hw hc hr) fun t _ ht hl ha => ?_
    have hadvance := assured_advance input [.deleting] .deleted ht nofun
      (fun _ => hr.later hl) (fun _ => ha)
    exact assured_bind ht hadvance fun _ _ _ _ _ => trivial
  · trivial

theorem assured_deleteEvidence (hfresh : Function.Injective O.randomUUID)
    (input : DeleteEvidenceInput) (w : LifecycleWorld) (hw : LifecycleInv O w) :
    Assured O (fun _ _ => True) (EvidenceLifecycleService.deleteEvidence O input) w := by
  refine assured_bind hw (assured_requireRecord hw) fun t current ht _ hc => ?_
  split
  · trivial
  · refine assured_bind ht (assured_phaseActive ht hc) fun t current ht _ hc => ?_
    refine assured_bind ht (assured_phaseRevoking hfresh ht hc) fun t current ht _ hc => ?_
    refine assured_bind ht (assured_phaseRevoked ht hc) fun t current ht _ hc => ?_
    exact assured_phaseDeleting hfresh ht hc

end Programs

/-! ## Runs -/

variable {capsules : List StoredCapsule} {turns later : List (Turn DeleteEvidenceInput)}

/-- The rows that are stored at first are active and have their ciphertexts. -/
theorem row_of_storing {r : ManifestRow}
    (hr : r ∈ (LifecycleWorld.storing capsules).manifests.rows) :
    ∃ c : StoredCapsule, r = c.row := by
  have hfold : ∀ (capsules : List StoredCapsule) (t : Table ManifestRow ManifestRow.key),
      (∀ r ∈ t.rows, ∃ c : StoredCapsule, r = c.row) →
      ∀ r ∈ (capsules.foldl (fun t c => (t.insert c.row).getD t) t).rows,
        ∃ c : StoredCapsule, r = c.row := by
    intro capsules
    induction capsules with
    | nil => exact fun _ ht => ht
    | cons c capsules ih =>
      intro t ht
      refine ih _ fun r hr => ?_
      dsimp only at hr
      cases hi : t.insert c.row with
      | none =>
        rw [hi] at hr
        exact ht r hr
      | some u =>
        rw [hi, Option.getD_some, Table.rows_of_insert hi] at hr
        rcases List.mem_append.mp hr with hr | hr
        · exact ht r hr
        · exact ⟨c, List.mem_singleton.mp hr⟩
  exact hfold capsules .empty (fun r hr => absurd hr List.not_mem_nil) r hr

theorem inv_storing (capsules : List StoredCapsule) : LifecycleInv O (.storing capsules) := by
  refine ⟨nofun, fun r hr => ?_, nofun⟩
  obtain ⟨c, rfl⟩ := row_of_storing hr
  exact ⟨fun h => absurd rfl h.1, nofun, nofun⟩

theorem sound_after (hfresh : Function.Injective O.randomUUID) (capsules : List StoredCapsule)
    (turns : List (Turn DeleteEvidenceInput)) :
    Pool.Sound (lifecycleDiscipline O) (fun _ _ _ => True) (fun _ _ _ => True)
      (LifecyclePool.after O capsules turns) := by
  have hstart : Pool.Sound (lifecycleDiscipline O) (fun _ _ _ => True) (fun _ _ _ => True)
      (⟨.storing capsules, []⟩ : LifecyclePool) := ⟨inv_storing capsules, nofun⟩
  exact hstart.runs (fun _ _ _ _ _ _ h => h) (assured_deleteEvidence hfresh)
    (Pool.allAllowed_of (fun _ _ _ => trivial) _)

theorem later_after (hfresh : Function.Injective O.randomUUID) :
    Later (LifecyclePool.after O capsules turns).shared
      (LifecyclePool.after O capsules (turns ++ later)).shared := by
  have hlater := (sound_after hfresh capsules turns).later_runs (fun _ _ _ _ _ _ h => h)
    (assured_deleteEvidence hfresh) (Pool.allAllowed_of (fun _ _ _ => trivial) later)
  unfold LifecyclePool.after at *
  rwa [Pool.runs_append]

/-- The store after a sequence of turns. -/
def lifecycleAfter (O : LifecycleOracle) (capsules : List StoredCapsule)
    (turns : List (Turn DeleteEvidenceInput)) : LifecycleWorld :=
  (LifecyclePool.after O capsules turns).shared

/-- The third step of a deletion that fails is the revocation at the key management. -/
def sampleOracle : LifecycleOracle where
  randomUUID n := .ofList (List.replicate n 'u')
  fault n := if n = 3 then .before else .none
  kmsScoped := true

def sampleCapsule : StoredCapsule :=
  ⟨"t", "capsule", 1, "c", "investigation", "p", "r", "k", [0], "z"⟩

def sampleDeletion : DeleteEvidenceInput :=
  ⟨"t", "capsule", "public_api_delete", ⟨"user", "u", "x"⟩, "n"⟩

/-- The revocation fails, and the second deletion goes through. -/
def deletedTwice : List (Turn DeleteEvidenceInput) :=
  .spawn sampleDeletion :: List.replicate 5 (.advance 0) ++
    .spawn sampleDeletion :: List.replicate 16 (.advance 1)

theorem sampleOracle_fresh : Function.Injective sampleOracle.randomUUID := by
  intro m n h
  have hlist := congrArg String.toList h
  simp only [sampleOracle, String.toList_ofList] at hlist
  simpa using congrArg List.length hlist

end Qualigence.Evidence.Lifecycle
