import Mathlib.Logic.Relation
import Qualigence.RunnerIdentity.Exchange

/-! # Revocations are final

A revocation covers the bindings that a Runner has, and with them every binding that is
rotated out of one of them later on. None of these is active again, unless a rotation stores
its binding after the binding it was rotated from was revoked.
-/

namespace Qualigence.RunnerIdentity

open Foundation IdentityWorld

/-- A binding was obtained from another one by rotations. -/
def DescendsFrom (w : IdentityWorld) : BindingKey → BindingKey → Prop :=
  Relation.ReflTransGen fun child parent => (child, parent) ∈ w.log.rotations

/-- When a rotation stores its binding, the one it was rotated from is not revoked. -/
def Unrevoked (w : IdentityWorld) : IdentityOp → Prop
  | .put _ _ (some parent) => parent.key ∉ w.log.revoked
  | _ => True

instance : (w : IdentityWorld) → (op : IdentityOp) → Decidable (Unrevoked w op)
  | w, .put _ _ (some parent) => inferInstanceAs (Decidable (parent.key ∉ w.log.revoked))
  | _, .put _ _ none => isTrue trivial
  | _, .now => isTrue trivial
  | _, .generateId => isTrue trivial
  | _, .generateToken => isTrue trivial
  | _, .issue _ => isTrue trivial
  | _, .create _ _ => isTrue trivial
  | _, .findById _ _ => isTrue trivial
  | _, .consume _ _ _ => isTrue trivial
  | _, .listByRunner _ _ _ => isTrue trivial
  | _, .updateStatus _ _ _ _ => isTrue trivial

instance : (w : IdentityWorld) → (op : IdentityOp) → Decidable (Unstored w op)
  | w, .put _ principal _ =>
    inferInstanceAs (Decidable (principal.certificateFingerprintSha256 ∉ w.log.stored))
  | _, .now => isTrue trivial
  | _, .generateId => isTrue trivial
  | _, .generateToken => isTrue trivial
  | _, .issue _ => isTrue trivial
  | _, .create _ _ => isTrue trivial
  | _, .findById _ _ => isTrue trivial
  | _, .consume _ _ _ => isTrue trivial
  | _, .listByRunner _ _ _ => isTrue trivial
  | _, .updateStatus _ _ _ _ => isTrue trivial

/-- What a step meets in a run without late rotations. -/
def Timely (w : IdentityWorld) (op : IdentityOp) : Prop := Unstored w op ∧ Unrevoked w op

instance (w : IdentityWorld) (op : IdentityOp) : Decidable (Timely w op) :=
  inferInstanceAs (Decidable (_ ∧ _))

/-! ## Bindings -/

/-- The binding exists and belongs to the Runner. -/
def Bound (w : IdentityWorld) (key : BindingKey) (runnerId : String) : Prop :=
  ∃ b, w.principals.get key = some b ∧ b.runnerId = runnerId

/-- Bindings stay, with their Runner. -/
def BindingsStay (w w' : IdentityWorld) : Prop :=
  ∀ key runnerId, Bound w key runnerId → Bound w' key runnerId

/-- A rotation may only store a binding of the Runner whose binding it read. -/
def BindingPermitted (w : IdentityWorld) : IdentityOp → Prop
  | .put _ principal (some parent) =>
    parent.tenantId = principal.tenantId ∧ Bound w parent.key principal.runnerId
  | .updateStatus _ _ _ status => status ≠ .active
  | _ => True

/-- The bindings that revocations covered are not active, and with a binding they cover what
was rotated out of it. -/
structure BindingInv (w : IdentityWorld) : Prop where
  stored : ∀ b ∈ w.principals.rows, b.certificateFingerprintSha256 ∈ w.log.stored
  covered : ∀ key ∈ w.log.revoked, ∃ b, w.principals.get key = some b ∧ b.status ≠ .active
  lineage : ∀ r ∈ w.log.rotations, r.1.1 = r.2.1 ∧
    ∃ runnerId, Bound w r.1 runnerId ∧ Bound w r.2 runnerId
  closed : ∀ r ∈ w.log.rotations, r.2 ∈ w.log.revoked → r.1 ∈ w.log.revoked

variable {w : IdentityWorld}

theorem BindingInv.not_active (hw : BindingInv w) {key : BindingKey} (hk : key ∈ w.log.revoked)
    {b : RunnerPrincipal} (hb : b ∈ w.principals.rows) (hd : DescendsFrom w b.key key) :
    b.status ≠ .active := by
  have hrevoked : b.key ∈ w.log.revoked := by
    refine Relation.ReflTransGen.head_induction_on hd hk ?_
    intro child parent hstep _ hparent
    exact hw.closed _ hstep hparent
  obtain ⟨b', hget, hstatus⟩ := hw.covered _ hrevoked
  rw [Table.get_eq_some_iff.mpr ⟨hb, rfl⟩] at hget
  cases hget
  exact hstatus

/-! ## Storing a binding -/

section Put

variable {principal : RunnerPrincipal} {rotatedFrom : Option RunnerPrincipal}

theorem get_put (hw : BindingInv w)
    (hfresh : principal.certificateFingerprintSha256 ∉ w.log.stored) (key : BindingKey) :
    (w.put principal rotatedFrom).principals.get key =
      if principal.key = key then some principal else w.principals.get key := by
  cases hi : w.principals.insert principal with
  | some principals =>
    simp only [IdentityWorld.put, upsert, hi]
    exact Table.get_of_insert hi
  | none =>
    obtain ⟨b, hb⟩ := Option.isSome_iff_exists.mp (Table.insert_eq_none_iff.mp hi)
    obtain ⟨hmem, hkey⟩ := Table.get_eq_some_iff.mp hb
    have hfp : b.certificateFingerprintSha256 = principal.certificateFingerprintSha256 :=
      congrArg Prod.snd hkey
    exact absurd (hfp ▸ hw.stored b hmem) hfresh

theorem bindingsStay_put (rotatedFrom : Option RunnerPrincipal) (hw : BindingInv w)
    (hfresh : principal.certificateFingerprintSha256 ∉ w.log.stored) :
    BindingsStay w (w.put principal rotatedFrom) := by
  rintro key runnerId ⟨b, hb, hr⟩
  obtain ⟨hmem, hkey⟩ := Table.get_eq_some_iff.mp hb
  refine ⟨b, ?_, hr⟩
  rw [get_put hw hfresh, if_neg, hb]
  rintro rfl
  have hfp : b.certificateFingerprintSha256 = principal.certificateFingerprintSha256 :=
    congrArg Prod.snd hkey
  exact hfresh (hfp ▸ hw.stored b hmem)

theorem BindingInv.put (hw : BindingInv w)
    (hfresh : principal.certificateFingerprintSha256 ∉ w.log.stored)
    (hparent : ∀ parent, rotatedFrom = some parent → parent.key ∉ w.log.revoked ∧
      parent.tenantId = principal.tenantId ∧ Bound w parent.key principal.runnerId) :
    BindingInv (w.put principal rotatedFrom) := by
  have hstay := bindingsStay_put rotatedFrom hw hfresh
  have hrotation : ∀ r ∈ (w.put principal rotatedFrom).log.rotations,
      r ∈ w.log.rotations ∨
        ∃ parent, rotatedFrom = some parent ∧ r = (principal.key, parent.key) := by
    intro r hr
    rcases List.mem_append.mp hr with hr | hr
    · exact .inl hr
    · obtain ⟨parent, hmem, rfl⟩ := List.mem_map.mp hr
      exact .inr ⟨parent, Option.mem_toList.mp hmem, rfl⟩
  refine ⟨fun b hb => ?_, fun key hk => ?_, fun r hr => ?_, fun r hr hrev => ?_⟩
  · have hget := Table.get_eq_some_iff.mpr ⟨hb, rfl⟩
    rw [get_put hw hfresh] at hget
    split at hget
    · cases hget
      exact List.mem_append_right _ (List.mem_singleton_self _)
    · exact List.mem_append_left _ (hw.stored b (Table.mem_of_get hget))
  · obtain ⟨b, hb, hs⟩ := hw.covered key hk
    obtain ⟨b', hb', _⟩ := hstay key b.runnerId ⟨b, hb, rfl⟩
    rw [get_put hw hfresh] at hb'
    refine ⟨b, ?_, hs⟩
    rw [get_put hw hfresh, if_neg, hb]
    rintro rfl
    obtain ⟨hmem, hkey⟩ := Table.get_eq_some_iff.mp hb
    have hfp : b.certificateFingerprintSha256 = principal.certificateFingerprintSha256 :=
      congrArg Prod.snd hkey
    exact hfresh (hfp ▸ hw.stored b hmem)
  · rcases hrotation r hr with hr | ⟨parent, hp, rfl⟩
    · obtain ⟨ht, runnerId, hc, hp⟩ := hw.lineage r hr
      exact ⟨ht, runnerId, hstay _ _ hc, hstay _ _ hp⟩
    · obtain ⟨_, ht, hb⟩ := hparent parent hp
      refine ⟨ht.symm, principal.runnerId, ⟨principal, ?_, rfl⟩, hstay _ _ hb⟩
      rw [get_put hw hfresh, if_pos rfl]
  · rcases hrotation r hr with hr | ⟨parent, hp, rfl⟩
    · exact hw.closed r hr hrev
    · exact absurd hrev (hparent parent hp).1

end Put

/-! ## Changing the status of a Runner -/

section Status

variable {scope tenantId runnerId : String} {status : RunnerStatus}

theorem get_updateStatus (key : BindingKey) :
    (w.updateStatus scope tenantId runnerId status).principals.get key =
      (w.principals.get key).map fun b =>
        if ofRunner scope tenantId runnerId b then b.setStatus status else b := by
  unfold IdentityWorld.updateStatus
  dsimp only
  rw [Table.get_update]

theorem bindingsStay_updateStatus (scope tenantId runnerId : String) (status : RunnerStatus) :
    BindingsStay w (w.updateStatus scope tenantId runnerId status) := by
  rintro key runner ⟨b, hb, hr⟩
  refine ⟨_, by rw [get_updateStatus, hb]; rfl, ?_⟩
  dsimp only
  split <;> exact hr

theorem mem_revoked_updateStatus {key : BindingKey}
    (hk : key ∈ (w.updateStatus scope tenantId runnerId status).log.revoked) :
    key ∈ w.log.revoked ∨ status = .revoked ∧
      ∃ b, w.principals.get key = some b ∧ ofRunner scope tenantId runnerId b := by
  unfold IdentityWorld.updateStatus at hk
  dsimp only at hk
  split at hk
  · next hs =>
    rcases List.mem_append.mp hk with hk | hk
    · exact .inl hk
    · obtain ⟨b, hb, rfl⟩ := List.mem_map.mp hk
      obtain ⟨hmem, hof⟩ := List.mem_filter.mp hb
      exact .inr ⟨hs, b, Table.get_eq_some_iff.mpr ⟨hmem, rfl⟩, hof⟩
  · exact .inl hk

theorem ofRunner_iff {b : RunnerPrincipal} : ofRunner scope tenantId runnerId b = true ↔
    b.tenantId = scope ∧ b.tenantId = tenantId ∧ b.runnerId = runnerId := by
  simp [ofRunner]

theorem BindingInv.updateStatus (hw : BindingInv w) (hs : status ≠ .active) :
    BindingInv (w.updateStatus scope tenantId runnerId status) := by
  have hstay := bindingsStay_updateStatus (w := w) scope tenantId runnerId status
  refine ⟨fun b hb => ?_, fun key hk => ?_, fun r hr => ?_, fun r hr hrev => ?_⟩
  · obtain ⟨b₀, hb₀, rfl⟩ := List.mem_map.mp hb
    have := hw.stored b₀ hb₀
    split <;> exact this
  · have hnow : ∀ b, w.principals.get key = some b →
        b.status ≠ .active ∨ ofRunner scope tenantId runnerId b → ∃ b',
          (w.updateStatus scope tenantId runnerId status).principals.get key = some b' ∧
            b'.status ≠ .active := by
      intro b hb h
      refine ⟨_, by rw [get_updateStatus, hb]; rfl, ?_⟩
      dsimp only
      split
      · exact hs
      · next hof => exact h.resolve_right hof
    rcases mem_revoked_updateStatus hk with hk | ⟨_, b, hb, hof⟩
    · obtain ⟨b, hb, hstatus⟩ := hw.covered key hk
      exact hnow b hb (.inl hstatus)
    · exact hnow b hb (.inr hof)
  · obtain ⟨ht, runner, hc, hp⟩ := hw.lineage r hr
    exact ⟨ht, runner, hstay _ _ hc, hstay _ _ hp⟩
  · have hkeep : ∀ key ∈ w.log.revoked,
        key ∈ (w.updateStatus scope tenantId runnerId status).log.revoked := by
      intro key hk
      unfold IdentityWorld.updateStatus
      dsimp only
      split
      · exact List.mem_append_left _ hk
      · exact hk
    rcases mem_revoked_updateStatus hrev with hrev | ⟨rfl, parent, hparent, hof⟩
    · exact hkeep _ (hw.closed r hr hrev)
    · -- the rotated binding has the tenant and the Runner of the one that is covered now
      obtain ⟨ht, runner, ⟨child, hchild, hrunner⟩, ⟨parent', hparent', hrunner'⟩⟩ :=
        hw.lineage r hr
      rw [hparent] at hparent'
      cases hparent'
      obtain ⟨hscope, htenant, hrun⟩ := ofRunner_iff.mp hof
      have hckey := congrArg Prod.fst (Table.key_of_get hchild)
      have hpkey := congrArg Prod.fst (Table.key_of_get hparent)
      have hct : child.tenantId = parent.tenantId := hckey.trans (ht.trans hpkey.symm)
      have hcof : ofRunner scope tenantId runnerId child = true := ofRunner_iff.mpr
        ⟨hct.trans hscope, hct.trans htenant, hrunner.trans (hrunner'.symm.trans hrun)⟩
      refine List.mem_append_right _ (List.mem_map.mpr ⟨child, ?_, Table.key_of_get hchild⟩)
      exact List.mem_filter.mpr ⟨Table.mem_of_get hchild, hcof⟩

end Status

/-! ## The requests -/

variable {P : IdentityPlatform}

theorem BindingInv.handler {op : IdentityOp} (hp : BindingPermitted w op) (ht : Timely w op)
    (hw : BindingInv w) : BindingInv (handler P op w).2 ∧ BindingsStay w (handler P op w).2 := by
  obtain ⟨hfresh, hunrevoked⟩ := ht
  have hsame : BindingInv w ∧ BindingsStay w w := ⟨hw, fun _ _ h => h⟩
  cases op with
  | issue input =>
    unfold RunnerIdentity.handler
    dsimp only
    split <;> exact ⟨⟨hw.stored, hw.covered, hw.lineage, hw.closed⟩, hsame.2⟩
  | create scope enrollment =>
    unfold RunnerIdentity.handler
    dsimp only
    split
    · split
      · exact ⟨⟨hw.stored, hw.covered, hw.lineage, hw.closed⟩, hsame.2⟩
      · exact hsame
    · exact hsame
  | put scope principal rotatedFrom =>
    unfold RunnerIdentity.handler
    dsimp only
    split
    · refine ⟨hw.put hfresh ?_, bindingsStay_put _ hw hfresh⟩
      rintro parent rfl
      exact ⟨hunrevoked, hp⟩
    · exact hsame
  | updateStatus scope tenantId runnerId status =>
    exact ⟨hw.updateStatus hp, bindingsStay_updateStatus _ _ _ _⟩
  | _ => exact ⟨⟨hw.stored, hw.covered, hw.lineage, hw.closed⟩, hsame.2⟩

variable (P)

/-- What the requests keep in a run without late rotations. -/
def bindingDiscipline : Program.Discipline ((handler P).guard Timely) where
  inv := BindingInv
  later := BindingsStay
  permitted := BindingPermitted
  later_refl _ _ _ h := h
  later_trans _ _ _ h h' key runnerId hb := h' key runnerId (h key runnerId hb)
  permitted_later s t op hl hp := by
    cases op with
    | put scope principal rotatedFrom =>
      cases rotatedFrom with
      | none => trivial
      | some parent => exact ⟨hp.1, hl _ _ hp.2⟩
    | _ => trivial
  keeps op s hp hs := by
    unfold Handler.guard
    dsimp only
    split
    · next ht => exact hs.handler hp ht
    · exact ⟨hs, fun _ _ h => h⟩

variable {P}

theorem assured_perform {op : IdentityOp} {post : IdentityWorld → op.Reply → Prop}
    (hop : BindingPermitted w op)
    (hr : ∀ t r, BindingsStay w t → BindingInv t → (handler P op t).1 = .ok r →
      post ((handler P).guard Timely op t).2 r) :
    Program.Assured (bindingDiscipline P) (fun _ _ => True) post (perform op) w :=
  Program.assured_perform hop fun t r hl ht _ hr' => hr t r hl ht hr'

theorem assured_aside {α : Type} {op : IdentityOp} {f : op.Reply → IdentityProgram α}
    {post : IdentityWorld → α → Prop} (hop : ∀ t, BindingPermitted t op) (hw : BindingInv w)
    (hf : ∀ t a, BindingInv t →
      Program.Assured (bindingDiscipline P) (fun _ _ => True) post (f a) t) :
    Program.Assured (bindingDiscipline P) (fun _ _ => True) post ((perform op).bind f) w :=
  Program.assured_bind (M := fun _ _ => True) hw
    (assured_perform (hop w) fun _ _ _ _ _ => trivial) fun t a ht _ => hf t a ht

theorem assured_body (request : IdentityRequest) (w : IdentityWorld) (hw : BindingInv w) :
    Program.Assured (bindingDiscipline P) (fun _ _ => True) (fun _ _ => True)
      (request.body P) w := by
  cases request with
  | createEnrollment scope input =>
    iterate 4 refine assured_aside (fun _ => trivial) (by assumption) fun _ _ _ => ?_
    trivial
  | issueCertificate scope enrollmentId token csrPem =>
    refine assured_aside (fun _ => trivial) hw fun t found ht => ?_
    cases found with
    | none => trivial
    | some enrollment =>
      dsimp only
      split
      · trivial
      refine assured_aside (fun _ => trivial) ht fun t now ht => ?_
      split
      · trivial
      split
      · trivial
      refine assured_aside (fun _ => trivial) ht fun t issued ht => ?_
      refine assured_aside (fun _ => trivial) ht fun t consumed ht => ?_
      split
      · exact assured_aside (fun _ => trivial) ht fun t _ ht => trivial
      · trivial
  | rotateCertificate scope tenantId runnerId csrPem =>
    refine Program.assured_bind (M := fun t (bindings : List RunnerPrincipal) => ∀ b ∈ bindings,
      b.tenantId = tenantId ∧ Bound t b.key runnerId) hw
      (assured_perform trivial ?_) fun t bindings ht hbound => ?_
    · rintro t bindings - - hreply b hb
      cases hreply
      obtain ⟨hmem, hof⟩ := List.mem_filter.mp hb
      obtain ⟨_, htenant, hrunner⟩ := ofRunner_iff.mp hof
      have hget := Table.get_eq_some_iff.mpr ⟨hmem, rfl⟩
      refine ⟨htenant, b, ?_, hrunner⟩
      unfold Handler.guard
      dsimp only
      split <;> exact hget
    · dsimp only
      split
      · trivial
      next active hactive =>
      obtain ⟨htenant, hb⟩ := hbound active (List.mem_of_find?_eq_some hactive)
      refine Program.assured_bind (M := fun t _ => Bound t active.key runnerId) ht
        (assured_perform trivial ?_) fun t issued ht hb => ?_
      · intro t issued hl ht _
        exact ((bindingDiscipline P).keeps (.issue _) t trivial ht).2 _ _ (hl _ _ hb)
      · exact Program.assured_bind (M := fun _ _ => True) ht
          (assured_perform ⟨htenant, hb⟩ fun _ _ _ _ _ => trivial)
          fun _ _ _ _ => trivial
  | revokeRunner scope tenantId runnerId =>
    refine assured_aside (fun _ h => by cases h) hw fun t _ ht => ?_
    exact assured_aside (fun _ => trivial) ht fun _ _ _ => trivial
  | suspendRunner scope tenantId runnerId =>
    refine assured_aside (fun _ h => by cases h) hw fun t _ ht => ?_
    exact assured_aside (fun _ => trivial) ht fun _ _ _ => trivial

/-! ## Runs -/

/-- Without late rotations, every step is timely. -/
theorem Fresh.timely (hP : P.FreshCertificates) {p : IdentityPool} (hp : Fresh P p)
    {turns : List (Turn IdentityRequest)}
    (ha : Pool.AllAllowed (handler P) (IdentityRequest.body P) (fun _ => Unrevoked) p turns) :
    Pool.AllAllowed (handler P) (IdentityRequest.body P) (fun _ => Timely) p turns := by
  induction turns generalizing p with
  | nil => trivial
  | cons t turns ih => exact ⟨(hp.allowed t).and ha.1, ih (hp.step hP t) ha.2⟩

theorem bindingInv_after (hP : P.FreshCertificates) {turns : List (Turn IdentityRequest)}
    (ha : Pool.AllAllowed (handler P) (IdentityRequest.body P) (fun _ => Unrevoked)
      ⟨.initial, []⟩ turns) : BindingInv (IdentityPool.after P turns).shared := by
  have hstart : Pool.Sound (bindingDiscipline P) (fun _ _ _ => True) (fun _ _ _ => True)
      (⟨.initial, []⟩ : IdentityPool) := ⟨⟨nofun, nofun, nofun, nofun⟩, nofun⟩
  have hrun := hstart.runs (fun _ _ _ _ _ _ h => h) assured_body
    (Pool.allAllowed_of (fun _ _ _ => trivial) turns)
  rw [Pool.runs_guard (fresh_initial.timely hP ha)] at hrun
  exact hrun.1

/-- In every run in which no rotation stores its binding after the one it was rotated from was
revoked, no binding that a revocation covered and none that was obtained from one by rotations
is active again. In every run at all, an enrollment is exchanged at most once. -/
theorem revocations_are_final (hP : P.FreshCertificates) (turns : List (Turn IdentityRequest))
    (ha : Pool.AllAllowed (handler P) (IdentityRequest.body P) (fun _ => Unrevoked)
      ⟨.initial, []⟩ turns) :
    (∀ key ∈ (IdentityPool.after P turns).shared.log.revoked,
      ∀ b ∈ (IdentityPool.after P turns).shared.principals.rows,
        DescendsFrom (IdentityPool.after P turns).shared b.key key → b.status ≠ .active) ∧
    ∀ key run, (IdentityPool.after P run).threads.countP (exchanged key) ≤ 1 := by
  refine ⟨fun key hk b hb hd => ?_, exchanged_le_one⟩
  exact (bindingInv_after hP ha).not_active hk hb hd

/-- An authority whose n-th certificate has a fingerprint of length n. -/
def samplePlatform : IdentityPlatform where
  hashEnrollmentToken token := token
  issue n input := .ok ⟨input.runnerId, "cert", "ca", .ofList (List.replicate n 'f'), 100⟩
  now _ := 0
  generateId _ := "e"
  generateToken _ := "secret"

theorem sample_freshCertificates : samplePlatform.FreshCertificates := by
  intro n m input input' c c' hc hc' hfp
  cases hc
  cases hc'
  simpa using congrArg String.length hfp

/-- A Runner is enrolled, and a rotation has obtained its certificate. -/
def enrolledAndRotating : List (Turn IdentityRequest) :=
  [.spawn (.createEnrollment "t" ⟨"t", "r", [], 10⟩), .advance 0, .advance 0, .advance 0,
    .advance 0, .spawn (.issueCertificate "t" "e" "secret" "csr"), .advance 1, .advance 1,
    .advance 1, .advance 1, .advance 1, .spawn (.rotateCertificate "t" "t" "r" "csr"), .advance 2,
    .advance 2, .spawn (.revokeRunner "t" "t" "r")]

/-- The rotation stores its binding before the Runner is revoked. -/
def timelyRotation : List (Turn IdentityRequest) :=
  enrolledAndRotating ++ [.advance 2, .advance 3, .advance 3]

/-- The rotation stores its binding after the Runner is revoked. -/
def lateRotation : List (Turn IdentityRequest) :=
  enrolledAndRotating ++ [.advance 3, .advance 3, .advance 2]

theorem timelyRotation_is_revoked :
    ("t", "") ∈ (IdentityPool.after samplePlatform timelyRotation).shared.log.revoked ∧
    ∀ b ∈ (IdentityPool.after samplePlatform timelyRotation).shared.principals.rows,
      DescendsFrom (IdentityPool.after samplePlatform timelyRotation).shared b.key ("t", "") →
        b.status ≠ .active :=
  ⟨by decide,
    (revocations_are_final sample_freshCertificates timelyRotation (by decide)).1 _ (by decide)⟩

/-- A rotation in progress outlives the completed revocation: its binding is active in the end. -/
theorem lateRotation_stays_active :
    samplePlatform.FreshCertificates ∧
    ((IdentityPool.after samplePlatform lateRotation).threads[3]?.map fun x =>
      x.2.result.isSome) = some true ∧
    ("t", "") ∈ (IdentityPool.after samplePlatform lateRotation).shared.log.revoked ∧
    ∃ b ∈ (IdentityPool.after samplePlatform lateRotation).shared.principals.rows,
      DescendsFrom (IdentityPool.after samplePlatform lateRotation).shared b.key ("t", "") ∧
        b.status = .active := by
  refine ⟨sample_freshCertificates, by decide, by decide, ?_⟩
  refine ⟨⟨"r", "t", [], "f", "spiffe://qualigence.local/tenants/t/runners/r", "e", .active, 100⟩,
    by decide, ?_, rfl⟩
  exact .single (by decide)

end Qualigence.RunnerIdentity
