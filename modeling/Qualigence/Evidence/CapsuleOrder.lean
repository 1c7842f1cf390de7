import Qualigence.Evidence.CapsuleStore
import Qualigence.Foundation.Linear

/-! # Revoked before deleted

The revisions of a capsule are revoked together. As long as no revision is appended to a
revoked capsule, a capsule stays revoked and only revoked revisions lose their ciphertexts.
-/

namespace Qualigence.Evidence.CapsuleStore

open Foundation CapsuleDb

/-- No revision of the capsule is revoked. -/
def Unrevoked (w : CapsuleWorld) (capsuleId : String) : Prop :=
  ∀ r ∈ w.db.manifests.rows, r.capsuleId = capsuleId → r.revocationState = .active

/-- The capsule that an operation appends a revision to. -/
def CapsuleOp.appends : CapsuleOp → Option String
  | .saveRemoteCapsule input => some input.manifest.protectedHeader.capsuleId
  | .rotateKey input => some input.manifest.protectedHeader.capsuleId
  | _ => none

/-- A revision is appended only to a capsule that is not revoked. -/
def AppendsUnrevoked (w : CapsuleWorld) (op : CapsuleOp) : Prop :=
  ∀ capsuleId ∈ op.appends, Unrevoked w capsuleId

instance (w : CapsuleWorld) (capsuleId : String) : Decidable (Unrevoked w capsuleId) :=
  inferInstanceAs (Decidable (∀ r ∈ w.db.manifests.rows, _))

instance (w : CapsuleWorld) (op : CapsuleOp) : Decidable (AppendsUnrevoked w op) :=
  inferInstanceAs (Decidable (∀ capsuleId ∈ op.appends, Unrevoked w capsuleId))

/-- Some revision of the capsule is revoked. -/
def RevokedCapsule (w : CapsuleWorld) (capsuleId : String) : Prop :=
  ∃ r ∈ w.db.manifests.rows, r.capsuleId = capsuleId ∧ r.revocationState = .revoked

/-- The revisions of a capsule are revoked together, and before they lose a ciphertext. -/
structure OrderInv (w : CapsuleWorld) : Prop where
  together : ∀ r ∈ w.db.manifests.rows, ∀ r' ∈ w.db.manifests.rows,
    r.capsuleId = r'.capsuleId → r.revocationState = r'.revocationState
  cleared : ∀ r ∈ w.db.manifests.rows, r.ciphertext = none → r.revocationState = .revoked

/-- Revisions are not dropped, and what is revoked stays revoked. -/
def RevisionsStay (w w' : CapsuleWorld) : Prop :=
  ∀ r ∈ w.db.manifests.rows, ∃ r' ∈ w'.db.manifests.rows, r'.capsuleId = r.capsuleId ∧
    (r.revocationState = .revoked → r'.revocationState = .revoked)

/-- Ciphertexts are removed only of revoked capsules. -/
def OrderPermitted (w : CapsuleWorld) : CapsuleOp → Prop
  | .clearCiphertext capsuleId => RevokedCapsule w capsuleId
  | _ => True

/-- Some revision of the capsule exists. -/
def StoredCapsule (w : CapsuleWorld) (capsuleId : String) : Prop :=
  ∃ r ∈ w.db.manifests.rows, r.capsuleId = capsuleId

variable {w w' w'' : CapsuleWorld} {capsuleId : String}

theorem RevisionsStay.refl (w : CapsuleWorld) : RevisionsStay w w :=
  fun r hr => ⟨r, hr, rfl, id⟩

theorem RevisionsStay.trans (h : RevisionsStay w w') (h' : RevisionsStay w' w'') :
    RevisionsStay w w'' := by
  intro r hr
  obtain ⟨r', hr', hid, hrev⟩ := h r hr
  obtain ⟨r'', hr'', hid', hrev'⟩ := h' r' hr'
  exact ⟨r'', hr'', hid'.trans hid, fun hstate => hrev' (hrev hstate)⟩

theorem RevokedCapsule.later (hc : RevokedCapsule w capsuleId) (h : RevisionsStay w w') :
    RevokedCapsule w' capsuleId := by
  obtain ⟨r, hr, hid, hstate⟩ := hc
  obtain ⟨r', hr', hid', hrev⟩ := h r hr
  exact ⟨r', hr', hid'.trans hid, hrev hstate⟩

theorem StoredCapsule.later (hc : StoredCapsule w capsuleId) (h : RevisionsStay w w') :
    StoredCapsule w' capsuleId := by
  obtain ⟨r, hr, hid⟩ := hc
  obtain ⟨r', hr', hid', _⟩ := h r hr
  exact ⟨r', hr', hid'.trans hid⟩

theorem OrderInv.all_revoked (hw : OrderInv w) (hc : RevokedCapsule w capsuleId) :
    ∀ r ∈ w.db.manifests.rows, r.capsuleId = capsuleId → r.revocationState = .revoked := by
  obtain ⟨r', hr', hid, hstate⟩ := hc
  intro r hr hrid
  rw [hw.together r hr r' hr' (hrid.trans hid.symm)]
  exact hstate

/-! ## Statements -/

/-- The revision that a statement appends is active and has a ciphertext. -/
structure Appends (db db' : CapsuleDb) (capsuleId : String) where
  row : ManifestRow
  rows : db'.manifests.rows = db.manifests.rows ++ [row]
  capsuleId_row : row.capsuleId = capsuleId
  active : row.revocationState = .active
  ciphertext : row.ciphertext ≠ none

theorem manifests_of_insertEntries {revision : Int} {now : String}
    {entries : List EvidenceCapsuleEntry} {db db' : CapsuleDb}
    (h : db.insertEntries capsuleId revision now entries = .ok db') :
    db'.manifests = db.manifests := by
  induction entries generalizing db with
  | nil =>
    cases h
    rfl
  | cons entry entries ih =>
    simp only [insertEntries, List.foldlM_cons] at h
    obtain ⟨db₁, h₁, h⟩ := bind_eq_ok.mp h
    have hrest : db'.manifests = db₁.manifests := ih h
    rw [hrest]
    unfold insertEntry at h₁
    split at h₁
    · split at h₁
      · cases h₁
        rfl
      · cases h₁
    · cases h₁

theorem appends_of_insertManifest {db db' : CapsuleDb} {profile : EvidenceEncryptionProfile}
    {manifest : RemoteEvidenceCapsuleManifest} {ciphertext : List UInt8} {revision : Int}
    {parentRevision : Option Int} {now : String}
    (h : (db.saveProfile profile).insertManifest
      (manifestRow manifest ciphertext revision parentRevision now) = .ok db') :
    Nonempty (Appends db db' manifest.protectedHeader.capsuleId) := by
  unfold insertManifest at h
  split at h
  · split at h
    · next manifests hi =>
      cases h
      exact ⟨⟨_, Table.rows_of_insert hi, rfl, rfl, (fun h => by cases h)⟩⟩
    · cases h
  · cases h

theorem appends_of_saveRemoteCapsule {db db' : CapsuleDb} {input : SaveRemoteCapsuleInput}
    {now : String} (h : db.saveRemoteCapsule input now = .ok db') :
    Nonempty (Appends db db' input.manifest.protectedHeader.capsuleId) := by
  obtain ⟨db₁, h₁, h⟩ := bind_eq_ok.mp h
  obtain ⟨happ⟩ := appends_of_insertManifest h₁
  have hm := manifests_of_insertEntries h
  exact ⟨⟨happ.row, by rw [hm, happ.rows], happ.capsuleId_row, happ.active, happ.ciphertext⟩⟩

theorem appends_of_rotateKey {db db' : CapsuleDb} {input : RotateKeyInput}
    {rotationId now : String} (h : db.rotateKey input rotationId now = .ok db') :
    Nonempty (Appends db db' input.manifest.protectedHeader.capsuleId) := by
  obtain ⟨db₁, h₁, h⟩ := bind_eq_ok.mp h
  obtain ⟨db₂, h₂, h⟩ := bind_eq_ok.mp h
  obtain ⟨happ⟩ := appends_of_insertManifest h₁
  have hm : db'.manifests = db₁.manifests := by
    rw [← manifests_of_insertEntries h₂]
    unfold insertRotation at h
    split at h
    · cases h
      rfl
    · cases h
  exact ⟨⟨happ.row, by rw [hm, happ.rows], happ.capsuleId_row, happ.active, happ.ciphertext⟩⟩

/-! ## Steps -/

theorem OrderInv.appends {db' : CapsuleDb} {draws : ℕ} (hw : OrderInv w)
    (ha : Appends w.db db' capsuleId) (hu : Unrevoked w capsuleId) :
    OrderInv ⟨db', draws⟩ ∧ RevisionsStay w ⟨db', draws⟩ := by
  have hmem : ∀ r ∈ db'.manifests.rows, r ∈ w.db.manifests.rows ∨ r = ha.row := by
    intro r hr
    rw [ha.rows] at hr
    simpa using hr
  have hnew : ∀ r ∈ w.db.manifests.rows, r.capsuleId = ha.row.capsuleId →
      r.revocationState = ha.row.revocationState := by
    intro r hr hid
    rw [ha.active]
    exact hu r hr (hid.trans ha.capsuleId_row)
  refine ⟨⟨?_, ?_⟩, ?_⟩
  · intro r hr r' hr' hid
    rcases hmem r hr with hold | rfl <;> rcases hmem r' hr' with hold' | rfl
    · exact hw.together r hold r' hold' hid
    · exact hnew r hold hid
    · exact (hnew r' hold' hid.symm).symm
    · rfl
  · intro r hr hnone
    rcases hmem r hr with hold | rfl
    · exact hw.cleared r hold hnone
    · exact absurd hnone ha.ciphertext
  · intro r hr
    refine ⟨r, ?_, rfl, id⟩
    rw [ha.rows]
    exact List.mem_append_left _ hr

theorem OrderInv.revokeManifests (hw : OrderInv w) (capsuleId now reason : String) :
    OrderInv { w with db := w.db.revokeManifests capsuleId now reason } ∧
    RevisionsStay w { w with db := w.db.revokeManifests capsuleId now reason } := by
  have hstate : ∀ r₀ : ManifestRow,
      (if ofCapsule capsuleId r₀ then r₀.revoke now reason else r₀).capsuleId = r₀.capsuleId ∧
      (if ofCapsule capsuleId r₀ then r₀.revoke now reason else r₀).revocationState =
        if r₀.capsuleId = capsuleId then .revoked else r₀.revocationState := by
    intro r₀
    by_cases hc : r₀.capsuleId = capsuleId <;> simp [ofCapsule, hc, ManifestRow.revoke]
  refine ⟨⟨?_, ?_⟩, ?_⟩
  · intro r hr r' hr' hid
    obtain ⟨r₀, hr₀, rfl⟩ := List.mem_map.mp hr
    obtain ⟨r₁, hr₁, rfl⟩ := List.mem_map.mp hr'
    rw [(hstate r₀).1, (hstate r₁).1] at hid
    rw [(hstate r₀).2, (hstate r₁).2, hid, hw.together r₀ hr₀ r₁ hr₁ hid]
  · intro r hr hnone
    obtain ⟨r₀, hr₀, rfl⟩ := List.mem_map.mp hr
    rw [(hstate r₀).2]
    split
    · rfl
    · next hc =>
      rw [if_neg (by simpa [ofCapsule] using hc)] at hnone
      exact hw.cleared r₀ hr₀ hnone
  · intro r₀ hr₀
    refine ⟨_, List.mem_map.mpr ⟨r₀, hr₀, rfl⟩, (hstate r₀).1, fun hrev => ?_⟩
    rw [(hstate r₀).2, hrev]
    split <;> rfl

theorem OrderInv.clearCiphertext (hw : OrderInv w) (hc : RevokedCapsule w capsuleId) :
    OrderInv { w with db := w.db.clearCiphertext capsuleId } ∧
    RevisionsStay w { w with db := w.db.clearCiphertext capsuleId } := by
  have hstate : ∀ r₀ : ManifestRow,
      (if ofCapsule capsuleId r₀ then r₀.clear else r₀).capsuleId = r₀.capsuleId ∧
      (if ofCapsule capsuleId r₀ then r₀.clear else r₀).revocationState = r₀.revocationState := by
    intro r₀
    split <;> exact ⟨rfl, rfl⟩
  refine ⟨⟨?_, ?_⟩, ?_⟩
  · intro r hr r' hr' hid
    obtain ⟨r₀, hr₀, rfl⟩ := List.mem_map.mp hr
    obtain ⟨r₁, hr₁, rfl⟩ := List.mem_map.mp hr'
    rw [(hstate r₀).1, (hstate r₁).1] at hid
    rw [(hstate r₀).2, (hstate r₁).2, hw.together r₀ hr₀ r₁ hr₁ hid]
  · intro r hr hnone
    obtain ⟨r₀, hr₀, rfl⟩ := List.mem_map.mp hr
    rw [(hstate r₀).2]
    by_cases hof : ofCapsule capsuleId r₀ = true
    · exact hw.all_revoked hc r₀ hr₀ (of_decide_eq_true hof)
    · rw [if_neg hof] at hnone
      exact hw.cleared r₀ hr₀ hnone
  · intro r₀ hr₀
    exact ⟨_, List.mem_map.mpr ⟨r₀, hr₀, rfl⟩, (hstate r₀).1, (hstate r₀).2.trans⟩

variable {O : CapsuleOracle}

theorem OrderInv.handler {op : CapsuleOp} (hp : OrderPermitted w op) (ha : AppendsUnrevoked w op)
    (hw : OrderInv w) : OrderInv (handler O op w).2 ∧ RevisionsStay w (handler O op w).2 := by
  have hsame : ∀ draws, OrderInv { w with draws } ∧ RevisionsStay w { w with draws } :=
    fun _ => ⟨⟨hw.together, hw.cleared⟩, .refl w⟩
  have htransact : ∀ (r : Except CapsuleStoreError CapsuleDb) (capsuleId : String),
      Unrevoked w capsuleId → (∀ db', r = .ok db' → Nonempty (Appends w.db db' capsuleId)) →
      OrderInv (w.transact r).2 ∧ RevisionsStay w (w.transact r).2 := by
    intro r capsuleId hu happ
    cases r with
    | ok db' =>
      obtain ⟨ha⟩ := happ db' rfl
      exact hw.appends ha hu
    | error e => exact hsame _
  cases op with
  | saveRemoteCapsule input =>
    exact htransact _ _ (ha _ rfl) fun db' h => appends_of_saveRemoteCapsule h
  | rotateKey input => exact htransact _ _ (ha _ rfl) fun db' h => appends_of_rotateKey h
  | revokeManifests capsuleId now reason => exact hw.revokeManifests capsuleId now reason
  | clearCiphertext capsuleId => exact hw.clearCiphertext hp
  | record event => exact ⟨⟨hw.together, hw.cleared⟩, .refl w⟩
  | _ => exact hsame _

/-! ## Operations -/

variable (O)

/-- What the operations keep when no revision is appended to a revoked capsule. -/
def orderDiscipline : Program.Discipline ((handler O).guard AppendsUnrevoked) where
  inv := OrderInv
  later := RevisionsStay
  permitted := OrderPermitted
  later_refl := .refl
  later_trans _ _ _ := .trans
  permitted_later s t op hl hp := by
    cases op with
    | clearCiphertext capsuleId => exact RevokedCapsule.later hp hl
    | _ => trivial
  keeps op s hp hs := by
    unfold Handler.guard
    dsimp only
    split
    · next ha => exact hs.handler hp ha
    · exact ⟨hs, .refl s⟩

variable {O}

section Bodies

variable {α β : Type}

/-- The program keeps the discipline, whatever it returns. -/
abbrev Orderly (p : CapsuleProgram α) (w : CapsuleWorld) : Prop :=
  p.Assured (orderDiscipline O) (fun _ _ => True) (fun _ _ => True) w

theorem orderly_perform {op : CapsuleOp} (hop : OrderPermitted w op) :
    Orderly (O := O) (perform op) w :=
  Program.assured_perform hop fun _ _ _ _ _ _ => trivial

theorem orderly_bind {p : CapsuleProgram α} {f : α → CapsuleProgram β} (hw : OrderInv w)
    (hp : Orderly (O := O) p w) (hf : ∀ t a, OrderInv t → Orderly (O := O) (f a) t) :
    Orderly (O := O) (p.bind f) w :=
  Program.assured_bind (M := fun _ _ => True) hw hp fun t a ht _ => hf t a ht

theorem assured_perform {op : CapsuleOp} {post : CapsuleWorld → op.Reply → Prop}
    (hop : ∀ t, OrderPermitted t op)
    (hr : ∀ t r, RevisionsStay w t → OrderInv t → (handler O op t).1 = .ok r →
      RevisionsStay t ((handler O).guard AppendsUnrevoked op t).2 →
      post ((handler O).guard AppendsUnrevoked op t).2 r) :
    (perform op).Assured (orderDiscipline O) (fun _ _ => True) post w :=
  Program.assured_perform (hop w) fun t r hl ht _ hr' =>
    hr t r hl ht hr' ((orderDiscipline O).keeps op t (hop t) ht).2

theorem orderly_auditLifecycle (header : EvidenceCapsuleProtectedHeader) (actor : EvidenceActor)
    (outcome : AuditOutcome) (occurredAt : String) (hw : OrderInv w) :
    Orderly (O := O)
      (SqliteEvidenceCapsuleStore.auditLifecycle header actor outcome occurredAt) w :=
  orderly_bind hw (orderly_perform trivial) fun _ _ _ => orderly_perform trivial

theorem orderly_nowOr (occurredAt : Option String) :
    Orderly (O := O) (SqliteEvidenceCapsuleStore.nowOr occurredAt) w := by
  cases occurredAt with
  | none => exact orderly_perform trivial
  | some _ => trivial

theorem orderly_revokeCapsule (input : RevokeInput) (hw : OrderInv w) :
    Orderly (O := O) (SqliteEvidenceCapsuleStore.revokeCapsule input) w := by
  refine orderly_bind hw (orderly_perform trivial) fun t head ht => ?_
  cases head with
  | none => trivial
  | some head =>
    refine orderly_bind ht (orderly_nowOr _) fun t now ht => ?_
    refine orderly_bind ht ?_ fun t _ ht => ?_
    · refine ⟨trivial, fun t' _ ht' _ => ?_⟩
      have hnext := ((orderDiscipline O).keeps (.kmsRevoke input.capsuleId input.reason) t'
        trivial ht').1
      cases ((handler O).guard AppendsUnrevoked (.kmsRevoke input.capsuleId input.reason) t').1 with
      | ok _ => trivial
      | error cause =>
        exact orderly_bind hnext (orderly_auditLifecycle _ _ _ _ hnext) fun _ _ _ => trivial
    · refine orderly_bind ht (orderly_perform trivial) fun t _ ht => ?_
      exact orderly_auditLifecycle _ _ _ _ ht

/-- Without an active revision, a capsule that has a revision is revoked. -/
theorem revoked_of_activeRevision {head : ManifestRow}
    (hhead : head ∈ w.db.manifests.rows ∧ head.capsuleId = capsuleId)
    (h : w.db.activeRevision capsuleId = none) : RevokedCapsule w capsuleId := by
  refine ⟨head, hhead.1, hhead.2, ?_⟩
  have hnone := List.find?_eq_none.mp (Option.map_eq_none_iff.mp h) head hhead.1
  cases hstate : head.revocationState with
  | revoked => rfl
  | active => simp [ofCapsule, hhead.2, hstate] at hnone

/-- One row of the fold that `latest` is. -/
def laterRevision (best : Option ManifestRow) (row : ManifestRow) : Option ManifestRow :=
  match best with
  | some b => if b.revision < row.revision then some row else some b
  | none => some row

theorem mem_of_latest {rows : List ManifestRow} {r : ManifestRow} (h : latest rows = some r) :
    r ∈ rows := by
  have hfold : ∀ (rows : List ManifestRow) (best : Option ManifestRow) (r : ManifestRow),
      rows.foldl laterRevision best = some r → best = some r ∨ r ∈ rows := by
    intro rows
    induction rows with
    | nil => exact fun best r h => .inl h
    | cons row rows ih =>
      intro best r h
      rcases ih _ r h with hb | hmem
      · cases best with
        | none =>
          cases hb
          exact .inr List.mem_cons_self
        | some b =>
          dsimp only [laterRevision] at hb
          split at hb
          · cases hb
            exact .inr List.mem_cons_self
          · exact .inl hb
      · exact .inr (List.mem_cons_of_mem _ hmem)
  rcases hfold rows none r h with hb | hmem
  · cases hb
  · exact hmem

theorem assured_nowOr (occurredAt : Option String) (hc : RevokedCapsule w capsuleId) :
    (SqliteEvidenceCapsuleStore.nowOr occurredAt).Assured (orderDiscipline O) (fun _ _ => True)
      (fun t _ => RevokedCapsule t capsuleId) w := by
  cases occurredAt with
  | none => exact assured_perform (fun _ => trivial) fun t r hl _ _ hn => (hc.later hl).later hn
  | some _ => exact hc

theorem orderly_deleteCiphertext (input : DeleteInput) (hw : OrderInv w) :
    Orderly (O := O) (SqliteEvidenceCapsuleStore.deleteCiphertext input) w := by
  refine Program.assured_bind (M := fun t (head : Option ManifestRow) => head.isSome →
    StoredCapsule t input.capsuleId) hw (assured_perform (fun _ => trivial) ?_) ?_
  · intro t head _ _ hreply hn hsome
    cases hreply
    obtain ⟨r, hr⟩ := Option.isSome_iff_exists.mp hsome
    obtain ⟨hmem, hid⟩ := List.mem_filter.mp (mem_of_latest hr)
    exact StoredCapsule.later ⟨r, hmem, of_decide_eq_true hid⟩ hn
  · intro t head ht hstored
    cases head with
    | none => trivial
    | some head =>
      refine Program.assured_bind (M := fun t (active : Option Int) => active = none →
        RevokedCapsule t input.capsuleId) ht (assured_perform (fun _ => trivial) ?_) ?_
      · rintro t active hl _ hreply hn rfl
        obtain ⟨r, hr⟩ := (hstored rfl).later hl
        exact (revoked_of_activeRevision hr (Except.ok.inj hreply)).later hn
      · intro t active ht hrevoked
        dsimp only
        split
        · trivial
        next hnone =>
        have hc := hrevoked (by simpa using hnone)
        refine Program.assured_bind ht (assured_nowOr _ hc) fun t now ht hc => ?_
        refine orderly_bind ht (orderly_perform hc) fun t _ ht => ?_
        exact orderly_auditLifecycle _ _ _ _ ht

theorem orderly_body (request : CapsuleRequest) (w : CapsuleWorld) (hw : OrderInv w) :
    Orderly (O := O) request.body w := by
  cases request with
  | saveRemoteCapsule input => exact orderly_perform trivial
  | rotateKey input => exact orderly_perform trivial
  | revokeCapsule input => exact orderly_revokeCapsule input hw
  | deleteCiphertext input => exact orderly_deleteCiphertext input hw
  | expireCapsule input =>
    refine orderly_bind hw (orderly_revokeCapsule input hw) fun t _ ht => ?_
    exact orderly_deleteCiphertext _ ht

end Bodies

/-! ## Runs -/

/-- Every turn of a run appends revisions only to capsules that are not revoked. -/
abbrev AppendsUnrevokedOnly (O : CapsuleOracle) (turns : List (Turn CapsuleRequest)) : Prop :=
  Pool.AllAllowed (handler O) CapsuleRequest.body (fun _ => AppendsUnrevoked) ⟨.initial, []⟩ turns

variable {turns later : List (Turn CapsuleRequest)}

theorem sound_after (ha : AppendsUnrevokedOnly O turns) :
    Pool.Sound (orderDiscipline O) (fun _ _ _ => True) (fun _ _ _ => True)
      (CapsulePool.after O turns) := by
  have hstart : Pool.Sound (orderDiscipline O) (fun _ _ _ => True) (fun _ _ _ => True)
      (⟨.initial, []⟩ : CapsulePool) := by
    constructor
    · constructor
      · intro r hr
        cases hr
      · intro r hr
        cases hr
    · intro p hp
      cases hp
  have hrun := hstart.runs (fun _ _ _ _ _ _ h => h) orderly_body
    (Pool.allAllowed_of (fun _ _ _ => trivial) turns)
  rwa [Pool.runs_guard ha] at hrun

theorem revisionsStay_after (ha : AppendsUnrevokedOnly O (turns ++ later)) :
    RevisionsStay (CapsulePool.after O turns).shared
      (CapsulePool.after O (turns ++ later)).shared := by
  obtain ⟨hturns, hlater⟩ := Pool.allAllowed_append.mp ha
  have hstay := (sound_after hturns).later_runs (fun _ _ _ _ _ _ h => h) orderly_body
    (Pool.allAllowed_of (fun _ _ _ => trivial) later)
  unfold CapsulePool.after at *
  rw [Pool.runs_append]
  rwa [Pool.runs_guard hlater] at hstay

/-- The revisions of the store after a sequence of turns. -/
def manifestsAfter (O : CapsuleOracle) (turns : List (Turn CapsuleRequest)) : List ManifestRow :=
  (CapsulePool.after O turns).shared.db.manifests.rows

/-- In every run that appends no revision to a revoked capsule, a revision without its
ciphertext is revoked, and once a revision of a capsule is revoked all its revisions are, in
every later state. -/
theorem revoked_before_deleted (O : CapsuleOracle) (turns later : List (Turn CapsuleRequest))
    (ha : AppendsUnrevokedOnly O (turns ++ later)) :
    (∀ r ∈ manifestsAfter O turns, r.ciphertext = none → r.revocationState = .revoked) ∧
    ∀ r ∈ manifestsAfter O turns, r.revocationState = .revoked →
      ∀ r' ∈ manifestsAfter O (turns ++ later), r'.capsuleId = r.capsuleId →
        r'.revocationState = .revoked := by
  have hturns := (sound_after (Pool.allAllowed_append.mp ha).1).1
  refine ⟨hturns.cleared, fun r hr hstate r' hr' hid => ?_⟩
  have hc : RevokedCapsule (CapsulePool.after O turns).shared r.capsuleId := ⟨r, hr, rfl, hstate⟩
  exact (sound_after ha).1.all_revoked (hc.later (revisionsStay_after ha)) r' hr' hid

/-! ## Revisions of revoked capsules -/

def sampleOracle : CapsuleOracle where
  now _ := "now"
  randomUUID n := .ofList (List.replicate n 'u')
  kmsFails _ := false

def sampleProfile : EvidenceEncryptionProfile where
  profileId := "p"
  tenantId := "t"
  caseId := "c"
  recipient := "w"
  region := "r"
  purpose := "investigation"
  policyId := "y"
  wrappingKeyId := "k"
  wrappingPublicKeyPem := "pem"
  contentEncryptionAlgorithm := "A256GCM"
  keyWrappingAlgorithm := "RSA-OAEP-256"
  aadSchemaVersion := "evidence-capsule-aad/v1"
  allowedEntryKinds := []
  maximumEntryBytes := 1
  maximumPlaintextBytes := 1
  maximumCiphertextBytes := 1
  expiresAt := "z"

def sampleManifest : RemoteEvidenceCapsuleManifest where
  protectedHeader := ⟨"a", "capsule", "p", "s", "t", "c", "w", "r", "investigation", "y",
    "A256GCM", "RSA-OAEP-256", "k", "h", 1, "n", "z"⟩
  ciphertextSha256 := "h"
  ciphertextBytes := 1
  wrappedDekBase64 := "d"
  nonceBase64 := "n"
  authTagBase64 := "g"

def sampleSave : CapsuleRequest :=
  .saveRemoteCapsule ⟨sampleProfile, sampleManifest, [0], [], none, none⟩

def sampleRotation : CapsuleRequest :=
  .rotateKey ⟨sampleProfile, sampleManifest, [1], [], 1, 2, "a", "r", "k", "k'", "n", none⟩

def sampleExpiry : CapsuleRequest :=
  .expireCapsule ⟨"capsule", "ttl", ⟨"service", "s", "x"⟩, some "n"⟩

/-- A capsule is saved, its key is rotated, and it expires. -/
def rotatedThenExpired : List (Turn CapsuleRequest) :=
  ([.spawn sampleSave, .advance 0, .spawn sampleRotation, .advance 1, .spawn sampleExpiry] :
    List (Turn CapsuleRequest)) ++ List.replicate 10 (.advance 2)

/-- The key is rotated between the check and the update of the deletion. -/
def rotatedWhileExpiring : List (Turn CapsuleRequest) :=
  ([.spawn sampleSave, .advance 0, .spawn sampleExpiry] : List (Turn CapsuleRequest)) ++
    List.replicate 7 (.advance 1) ++
    ([.spawn sampleRotation, .advance 2, .advance 1] : List (Turn CapsuleRequest))

theorem rotatedThenExpired_is_revoked :
    (∃ r ∈ manifestsAfter sampleOracle rotatedThenExpired, r.ciphertext = none) ∧
    ∀ r ∈ manifestsAfter sampleOracle rotatedThenExpired,
      r.ciphertext = none → r.revocationState = .revoked :=
  ⟨by decide, (revoked_before_deleted sampleOracle rotatedThenExpired [] (by decide)).1⟩

/-- A key rotation resurrects the revoked capsule, and the deletion removes the ciphertext of
the active revision. -/
theorem rotatedWhileExpiring_is_active :
    ∃ r ∈ manifestsAfter sampleOracle rotatedWhileExpiring, r.revocationState = .revoked ∧
      ∃ r' ∈ manifestsAfter sampleOracle rotatedWhileExpiring, r'.capsuleId = r.capsuleId ∧
        r'.revocationState = .active ∧ r'.ciphertext = none := by
  decide

end Qualigence.Evidence.CapsuleStore
