import Qualigence.Foundation.Linear
import Qualigence.RunnerIdentity.Service

/-! # Certificates and exchanges are linear

A certificate authority never issues the same certificate twice, so the fingerprint that a
request obtained is its own until it stores a binding under it. An enrollment is handed out
once, to the request that consumed it.
-/

namespace Qualigence.RunnerIdentity

open Foundation IdentityWorld

/-- No two certificates that the authority issues have the same fingerprint. -/
def IdentityPlatform.FreshCertificates (P : IdentityPlatform) : Prop :=
  ∀ n m input input' c c', P.issue n input = .ok c → P.issue m input' = .ok c' →
    c.certificateFingerprintSha256 = c'.certificateFingerprintSha256 → n = m

/-! ## The fingerprint of a certificate -/

/-- The right to store a binding under a fingerprint. -/
def certificate (fingerprint : String) : Resource identitySignature IdentityFailure where
  acquires
    | .issue _, .ok issued => decide
      ((issued : IssuedRunnerCertificate).certificateFingerprintSha256 = fingerprint)
    | _, _ => false
  spends
    | .put _ principal _ => decide (principal.certificateFingerprintSha256 = fingerprint)
    | _ => false

variable (P : IdentityPlatform) (fingerprint : String)

theorem counts_certificate : Pool.Counts (certificate fingerprint) (handler P)
    (fun w => w.log.certificates.count fingerprint) (fun w => w.log.stored.count fingerprint) where
  acquired op w := by
    cases op with
    | issue input =>
      cases hi : P.issue w.issued input with
      | error e => simp [handler, hi, certificate]
      | ok c =>
        simp only [handler, hi, certificate, List.count_append, List.count_singleton]
        by_cases hc : c.certificateFingerprintSha256 = fingerprint <;> simp [hc]
    | create scope enrollment =>
      unfold handler
      dsimp only
      split
      · split <;> exact Nat.le_refl _
      · exact Nat.le_refl _
    | put scope principal rotatedFrom =>
      unfold handler
      dsimp only
      split <;> exact Nat.le_refl _
    | _ => exact Nat.le_refl _
  spent op w := by
    cases op with
    | issue input => cases hi : P.issue w.issued input <;> simp [handler, hi, certificate]
    | create scope enrollment =>
      unfold handler
      dsimp only
      split
      · split <;> exact Nat.le_refl _
      · exact Nat.le_refl _
    | put scope principal rotatedFrom =>
      unfold handler
      dsimp only
      split
      · simp only [certificate, IdentityWorld.put, List.count_append, List.count_singleton]
        by_cases hc : principal.certificateFingerprintSha256 = fingerprint <;> simp [hc]
      · exact Nat.le_add_right _ _
    | _ => exact Nat.le_refl _

theorem linear_aside {R : Resource identitySignature IdentityFailure} {op : IdentityOp}
    {α : Type} {f : op.Reply → IdentityProgram α} {Q : Bool → α → Prop} {held : Bool}
    (hs : R.spends op = false) (ha : ∀ r, R.acquires op r = false)
    (hf : ∀ a, Program.Linear R Q held (f a)) :
    Program.Linear R Q held ((perform op).bind f) := by
  refine Program.linear_bind (Program.linear_perform ?_ fun r => ?_)
  · intro h
    rw [hs] at h
    cases h
  · rw [Program.heldAfter, ha, hs]
    simpa using hf r

theorem linear_certificate {Q : Bool → IdentityReply → Prop} (hQ : ∀ b a, Q b a)
    (request : IdentityRequest) :
    Program.Linear (certificate fingerprint) Q false (request.body P) := by
  have hput : ∀ (scope : String) (b : RunnerPrincipal) (from? : Option RunnerPrincipal)
      (reply : IdentityReply) (issued : IssuedRunnerCertificate),
      b.certificateFingerprintSha256 = issued.certificateFingerprintSha256 →
      Program.Linear (certificate fingerprint) Q
        (decide (issued.certificateFingerprintSha256 = fingerprint))
        ((perform (.put scope b from?)).bind fun _ => .pure reply) := by
    intro scope b from? reply issued hb
    refine Program.linear_bind (Program.linear_perform ?_ fun _ => hQ _ _)
    intro h
    have hspend : decide (b.certificateFingerprintSha256 = fingerprint) = true := h
    rwa [hb] at hspend
  have hissue : ∀ (input : IssueRunnerCertificateInput)
      (f : IssuedRunnerCertificate → IdentityProgram IdentityReply),
      (∀ issued, Program.Linear (certificate fingerprint) Q
        (decide (issued.certificateFingerprintSha256 = fingerprint)) (f issued)) →
      Program.Linear (certificate fingerprint) Q false ((perform (.issue input)).bind f) := by
    intro input f hf
    refine Program.linear_bind (Program.linear_perform nofun fun issued => ?_)
    have hheld : Program.heldAfter (certificate fingerprint) false (.issue input) (.ok issued) =
        decide (issued.certificateFingerprintSha256 = fingerprint) := by
      simp [Program.heldAfter, certificate]
    rw [hheld]
    exact hf issued
  cases request with
  | createEnrollment scope input =>
    iterate 4 refine linear_aside rfl (fun _ => rfl) fun _ => ?_
    exact hQ _ _
  | issueCertificate scope enrollmentId token csrPem =>
    refine linear_aside rfl (fun _ => rfl) fun found => ?_
    cases found with
    | none => trivial
    | some enrollment =>
      dsimp only
      split
      · trivial
      refine linear_aside rfl (fun _ => rfl) fun now => ?_
      split
      · trivial
      split
      · trivial
      refine hissue _ _ fun issued => ?_
      refine linear_aside rfl (fun _ => rfl) fun (consumed : Bool) => ?_
      cases consumed with
      | false => trivial
      | true => exact hput _ _ _ _ issued rfl
  | rotateCertificate scope tenantId runnerId csrPem =>
    refine linear_aside rfl (fun _ => rfl) fun bindings => ?_
    dsimp only
    split
    · trivial
    · exact hissue _ _ fun issued => hput _ _ _ _ issued rfl
  | revokeRunner scope tenantId runnerId =>
    iterate 2 refine linear_aside rfl (fun _ => rfl) fun _ => ?_
    exact hQ _ _
  | suspendRunner scope tenantId runnerId =>
    iterate 2 refine linear_aside rfl (fun _ => rfl) fun _ => ?_
    exact hQ _ _

/-! ## The consumption of an enrollment -/

/-- The right to exchange an enrollment. -/
def exchange (key : EnrollmentKey) : Resource identitySignature IdentityFailure where
  acquires
    | .consume scope enrollmentId _, .ok consumed =>
      decide ((scope, enrollmentId) = key) && consumed
    | _, _ => false
  spends _ := false

/-- The enrollment is consumed. -/
def consumed (key : EnrollmentKey) (w : IdentityWorld) : Bool :=
  (w.enrollments.get key).any fun e => e.consumedAt.isSome

/-- The request exchanges the enrollment. -/
def IdentityRequest.exchanges (key : EnrollmentKey) : IdentityRequest → Bool
  | .issueCertificate scope enrollmentId _ _ => decide ((scope, enrollmentId) = key)
  | _ => false

variable {P fingerprint} {key : EnrollmentKey}

theorem consumed_consume (w : IdentityWorld) (k : EnrollmentKey) (consumedAt : Int) :
    (consumed key w).toNat + (decide (k = key) && (w.consume k consumedAt).1).toNat ≤
      (consumed key (w.consume k consumedAt).2).toNat := by
  unfold consumed IdentityWorld.consume
  dsimp only
  rw [Table.get_update]
  rw [Table.count_eq_of_key (k := k) fun e he => by simpa using (Bool.and_eq_true_iff.mp he).1]
  cases hg : w.enrollments.get key with
  | none =>
    by_cases hk : k = key
    · simp [hk, hg]
    · simp [hk]
  | some e =>
    have he := Table.key_of_get hg
    by_cases hk : k = key
    · subst hk
      cases hc : e.consumedAt <;> simp [hg, he, hc, RunnerEnrollment.setConsumedAt]
    · have hne : ¬ e.key = k := fun h => hk (h.symm.trans he)
      simp [hk, hne]

theorem counts_exchange :
    Pool.Counts (exchange key) (handler P) (fun w => (consumed key w).toNat) fun _ => 0 where
  acquired op w := by
    cases op with
    | issue input => cases hi : P.issue w.issued input <;> simp [handler, hi, exchange, consumed]
    | create scope enrollment =>
      unfold handler
      dsimp only
      split
      · split
        · next enrollments hi =>
          simp only [exchange, consumed, Bool.toNat_false, Nat.add_zero]
          rw [Table.get_of_insert hi]
          split
          · next hk =>
            subst hk
            rw [Table.get_eq_none_of_insert hi]
            exact Nat.zero_le _
          · exact Nat.le_refl _
        · exact Nat.le_refl _
      · exact Nat.le_refl _
    | consume scope enrollmentId consumedAt => exact consumed_consume w _ consumedAt
    | put scope principal rotatedFrom =>
      unfold handler
      dsimp only
      split <;> exact Nat.le_refl _
    | _ => exact Nat.le_refl _
  spent _ _ := Nat.zero_le _

/-- A request that exchanges the enrollment ends in a certificate only when it consumed it. -/
theorem linear_exchange (request : IdentityRequest) :
    Program.Linear (exchange key) (fun held _ => request.exchanges key = true → held = true) false
      (request.body P) := by
  cases request with
  | createEnrollment scope input =>
    iterate 4 refine linear_aside rfl (fun _ => rfl) fun _ => ?_
    exact fun h => by cases h
  | issueCertificate scope enrollmentId token csrPem =>
    refine linear_aside rfl (fun _ => rfl) fun found => ?_
    cases found with
    | none => trivial
    | some enrollment =>
      dsimp only
      split
      · trivial
      refine linear_aside rfl (fun _ => rfl) fun now => ?_
      split
      · trivial
      split
      · trivial
      refine linear_aside rfl (fun _ => rfl) fun issued => ?_
      refine Program.linear_bind (Program.linear_perform (fun h => by cases h) fun (consumed : Bool) => ?_)
      cases consumed with
      | false => trivial
      | true =>
        refine linear_aside rfl (fun _ => rfl) fun _ => ?_
        intro (hk : decide ((scope, enrollmentId) = key) = true)
        simp only [Program.heldAfter, exchange, hk, Bool.and_self, Bool.true_or]
  | rotateCertificate scope tenantId runnerId csrPem =>
    refine linear_aside rfl (fun _ => rfl) fun bindings => ?_
    dsimp only
    split
    · trivial
    · iterate 2 refine linear_aside rfl (fun _ => rfl) fun _ => ?_
      exact fun h => by cases h
  | revokeRunner scope tenantId runnerId =>
    iterate 2 refine linear_aside rfl (fun _ => rfl) fun _ => ?_
    exact fun h => by cases h
  | suspendRunner scope tenantId runnerId =>
    iterate 2 refine linear_aside rfl (fun _ => rfl) fun _ => ?_
    exact fun h => by cases h

/-- The requests that have exchanged an enrollment for a certificate. -/
def exchanged (key : EnrollmentKey)
    (x : IdentityRequest × IdentityProgram IdentityReply) : Bool :=
  x.1.exchanges key && x.2.result.isSome

/-- Whatever turns the requests take, an enrollment is exchanged at most once. -/
theorem exchanged_le_one (key : EnrollmentKey) (turns : List (Turn IdentityRequest)) :
    (IdentityPool.after P turns).threads.countP (exchanged key) ≤ 1 := by
  have hstart : Pool.Accounted (exchange key) (fun w => (consumed key w).toNat) (fun _ => 0)
      (fun request held _ => request.exchanges key = true → held = true)
      (⟨.initial, []⟩ : IdentityPool) := ⟨[], .nil, Nat.zero_le _⟩
  have hrun := hstart.runs (counts_exchange (P := P)) (linear_exchange (P := P)) turns
  have hle := hrun.countP_le (exchanged key) fun x hx b hlin => ?_
  · exact Nat.le_trans hle (Bool.toNat_le _)
  · obtain ⟨hreq, hres⟩ := Bool.and_eq_true_iff.mp hx
    obtain ⟨reply, hreply⟩ := Option.isSome_iff_exists.mp hres
    rw [Program.result_eq_some hreply] at hlin
    exact hlin hreq

/-! ## Fresh fingerprints -/

/-- The fingerprints that were issued, each by a call of its own. -/
structure CertificateInv (P : IdentityPlatform) (w : IdentityWorld) : Prop where
  nodup : w.log.certificates.Nodup
  issued : ∀ f ∈ w.log.certificates, ∃ n < w.issued, ∃ input c, P.issue n input = .ok c ∧
    c.certificateFingerprintSha256 = f

theorem CertificateInv.handler (hP : P.FreshCertificates) (op : IdentityOp) {w : IdentityWorld}
    (hw : CertificateInv P w) : CertificateInv P (handler P op w).2 := by
  cases op with
  | issue input =>
    have hmore : ∀ f ∈ w.log.certificates, ∃ n < w.issued + 1, ∃ input c,
        P.issue n input = .ok c ∧ c.certificateFingerprintSha256 = f := by
      intro f hf
      obtain ⟨n, hn, hissued⟩ := hw.issued f hf
      exact ⟨n, Nat.lt_succ_of_lt hn, hissued⟩
    unfold RunnerIdentity.handler
    dsimp only
    split
    · next c hc =>
      refine ⟨?_, fun f hf => ?_⟩
      · rw [List.nodup_append]
        refine ⟨hw.nodup, List.nodup_singleton _, ?_⟩
        rintro f hf _ hmem rfl
        obtain ⟨n, hn, input', c', hc', hfp⟩ := hw.issued f hf
        have := hP n w.issued input' input c' c hc' hc (hfp.trans (List.mem_singleton.mp hmem))
        omega
      · rcases List.mem_append.mp hf with hf | hf
        · exact hmore f hf
        · exact ⟨w.issued, Nat.lt_succ_self _, input, c, hc, (List.mem_singleton.mp hf).symm⟩
    · exact ⟨hw.nodup, hmore⟩
  | create scope enrollment =>
    unfold RunnerIdentity.handler
    dsimp only
    split
    · split <;> exact ⟨hw.nodup, hw.issued⟩
    · exact hw
  | put scope principal rotatedFrom =>
    unfold RunnerIdentity.handler
    dsimp only
    split
    · exact ⟨hw.nodup, hw.issued⟩
    · exact hw
  | _ => exact ⟨hw.nodup, hw.issued⟩

/-- The operation stores no binding under a fingerprint that one was stored under. -/
def Unstored (w : IdentityWorld) : IdentityOp → Prop
  | .put _ principal _ => principal.certificateFingerprintSha256 ∉ w.log.stored
  | _ => True

/-- The fingerprints of the requests are their own. -/
structure Fresh (P : IdentityPlatform) (p : IdentityPool) : Prop where
  inv : CertificateInv P p.shared
  accounted : ∀ fingerprint, Pool.Accounted (certificate fingerprint)
    (fun w : IdentityWorld => w.log.certificates.count fingerprint)
    (fun w => w.log.stored.count fingerprint)
    (fun (_ : IdentityRequest) _ (_ : IdentityReply) => True) p

theorem Fresh.step (hP : P.FreshCertificates) {p : IdentityPool} (hp : Fresh P p)
    (t : Turn IdentityRequest) : Fresh P (p.step (handler P) (IdentityRequest.body P) t) where
  inv := Pool.shared_runs (I := CertificateInv P) (fun op _ hw => hw.handler hP op) hp.inv [t]
  accounted fingerprint := (hp.accounted fingerprint).step (counts_certificate P fingerprint)
    (linear_certificate P fingerprint fun _ _ => trivial) t

theorem Fresh.allowed {p : IdentityPool} (hp : Fresh P p) (t : Turn IdentityRequest) :
    p.Allowed (fun _ => Unstored) t := by
  cases t with
  | spawn request => trivial
  | advance i =>
    change Pool.NextMeets (fun _ => Unstored) p.shared p.threads[i]?
    cases he : p.threads[i]? with
    | none => trivial
    | some x =>
      obtain ⟨request, prog⟩ := x
      cases prog with
      | pure a => trivial
      | throw e => trivial
      | call op next =>
        cases op with
        | put scope principal rotatedFrom =>
          have hlt := (hp.accounted principal.certificateFingerprintSha256).lt_of_spends he
            (decide_eq_true rfl)
          have hone := List.nodup_iff_count_le_one.mp hp.inv.nodup
            principal.certificateFingerprintSha256
          refine List.count_eq_zero.mp ?_
          omega
        | _ => trivial

theorem fresh_initial : Fresh P ⟨.initial, []⟩ where
  inv := ⟨List.nodup_nil, nofun⟩
  accounted _ := ⟨[], .nil, Nat.zero_le _⟩

end Qualigence.RunnerIdentity
