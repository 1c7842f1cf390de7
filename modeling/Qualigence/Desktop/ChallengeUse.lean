import Qualigence.Desktop.Challenges

/-! # Every challenge is used once

Over every history of calls the maps and queues of the verifier stay in step and within their
limits, and a Runner is authenticated at most once for each challenge, on the terms under which
the challenge began. The consumed records only serve to name a replay: what prevents one is that
a challenge leaves the pending ones for good.
-/

namespace Qualigence.Desktop

open Foundation

namespace CertificateHandshakeVerifier

/-- The maps and queues are in step and within the limits. -/
structure Sound (s : CertificateHandshakeVerifier) : Prop where
  pending : s.pending.InStep
  consumed : s.consumed.InStep
  pending_le : s.pending.len ≤ s.stateLimits.maxPending
  consumed_le : s.consumed.len ≤ s.stateLimits.maxConsumed

/-- What no call changes. -/
structure SameSettings (s t : CertificateHandshakeVerifier) : Prop where
  protocolMajor : t.protocolMajor = s.protocolMajor
  companionInstanceId : t.companionInstanceId = s.companionInstanceId
  policies : t.policies = s.policies
  deadlineMs : t.deadlineMs = s.deadlineMs
  stateLimits : t.stateLimits = s.stateLimits

/-- No pending challenge of `t` is new or differs from the one of `s`. -/
def Shrinks (s t : CertificateHandshakeVerifier) : Prop :=
  ∀ k p, t.pending.map.lookup k = some p → s.pending.map.lookup k = some p

variable {s t : CertificateHandshakeVerifier} {now : Nat}

@[refl] theorem SameSettings.refl : SameSettings s s := ⟨rfl, rfl, rfl, rfl, rfl⟩

theorem SameSettings.policy_eq (h : SameSettings s t) (runnerId : String) :
    t.policy runnerId = s.policy runnerId := by
  rw [policy, policy, h.policies]

theorem Shrinks.none (h : Shrinks s t) {k : String} (hk : s.pending.map.lookup k = none) :
    t.pending.map.lookup k = none := by
  cases hl : t.pending.map.lookup k with
  | none => rfl
  | some p =>
    rw [h k p hl] at hk
    cases hk

theorem Sound.new (protocolMajor : Nat) (companionInstanceId : String)
    (policies : List RunnerCertificatePolicy) (deadlineMs : Nat)
    (limits : CertificateChallengeStateLimits) :
    (withChallengeStateLimits protocolMajor companionInstanceId policies deadlineMs limits).Sound
    where
  pending := Queued.inStep_empty
  consumed := Queued.inStep_empty
  pending_le := Nat.zero_le _
  consumed_le := Nat.zero_le _

theorem Sound.purgeExpiredPendingChallenges (h : s.Sound) :
    (s.purgeExpiredPendingChallenges now).Sound where
  pending := h.pending.dropWhile
  consumed := h.consumed
  pending_le := Nat.le_trans Queued.len_dropWhile_le h.pending_le
  consumed_le := h.consumed_le

theorem Sound.purgeExpiredConsumedChallenges (h : s.Sound) :
    (s.purgeExpiredConsumedChallenges now).Sound where
  pending := h.pending
  consumed := h.consumed.dropWhile
  pending_le := h.pending_le
  consumed_le := Nat.le_trans Queued.len_dropWhile_le h.consumed_le

theorem Sound.purgeExpiredChallengeState (h : s.Sound) :
    (s.purgeExpiredChallengeState now).Sound :=
  h.purgeExpiredPendingChallenges.purgeExpiredConsumedChallenges

theorem Sound.clearPendingChallenges (h : s.Sound) : s.clearPendingChallenges.Sound where
  pending := Queued.inStep_empty
  consumed := h.consumed
  pending_le := Nat.zero_le _
  consumed_le := h.consumed_le

theorem Sound.issue (h : s.Sound) {k : String} (hk : s.pending.map.lookup k = none)
    (p : PendingCertificateChallenge) :
    Sound { s.enforcePendingCapacityForInsert with
      pending := s.enforcePendingCapacityForInsert.pending.push k p } where
  pending := h.pending.dropWhile.push (Queued.notMem_of_lookup (Queued.lookup_dropWhile_none hk))
  consumed := h.consumed
  pending_le := by
    change (Queued.push (s.pending.dropWhile _) k p).len ≤ s.stateLimits.maxPending
    rw [Queued.len_push (Queued.notMem_of_lookup (Queued.lookup_dropWhile_none hk))]
    exact Queued.len_dropFront_lt s.stateLimits.pending_pos h.pending
  consumed_le := h.consumed_le

theorem Sound.consumeChallenge (h : s.Sound) {k : String}
    (hk : s.consumed.map.lookup k = none) :
    (CertificateHandshakeVerifier.consumeChallenge { s with pending := s.pending.remove k }
      k now).Sound where
  pending := h.pending.remove
  consumed := (h.consumed.push (Queued.notMem_of_lookup hk)).dropWhile
  pending_le := Nat.le_trans Queued.len_remove_le h.pending_le
  consumed_le := Nat.lt_succ_iff.mp
    (Queued.len_dropFront_lt (Nat.succ_pos _) (h.consumed.push (Queued.notMem_of_lookup hk)))

/-! ## What a call does -/

section Calls

variable {L : CertificateLibrary}

theorem shrinks_purgeExpiredChallengeState : Shrinks s (s.purgeExpiredChallengeState now) :=
  fun _ _ h => Queued.lookup_dropWhile h

/-- What `begin` does: it issues a challenge for a certificate it has validated, or none. -/
inductive Begins (L : CertificateLibrary) (s : CertificateHandshakeVerifier) (now : Nat)
    (wall : Int) (idBytes nonce : List UInt8) (runnerId certificatePem : String) :
    CertificateHandshakeVerifier × Except CertificateHandshakeError Challenge → Prop
  | refused {t : CertificateHandshakeVerifier} {e : CertificateHandshakeError} :
    Shrinks s t → Begins L s now wall idBytes nonce runnerId certificatePem (t, .error e)
  | issued {t : CertificateHandshakeVerifier} {policy : RunnerCertificatePolicy}
      {certificate : ValidatedRunnerCertificate} :
    s.policy runnerId = some policy →
    validateRunnerCertificate L wall certificatePem policy = .ok certificate →
    (∀ k p, t.pending.map.lookup k = some p → s.pending.map.lookup k = some p ∨
      k = L.base64Encode idBytes ∧
        p = ⟨runnerId, L.base64Encode nonce, now, certificate⟩) →
    Begins L s now wall idBytes nonce runnerId certificatePem
      (t, .ok ⟨L.base64Encode idBytes, nonce⟩)

theorem begins (s : CertificateHandshakeVerifier) (now : Nat) (wall : Int)
    (idBytes nonce : List UInt8) (protocolMajor : Nat) (runnerId certificatePem : String) :
    Begins L s now wall idBytes nonce runnerId certificatePem
      (s.begin L now wall idBytes nonce protocolMajor runnerId certificatePem) := by
  unfold begin
  split
  · exact .refused fun _ _ h => h
  · dsimp only
    split
    · exact .refused shrinks_purgeExpiredChallengeState
    · next policy hp =>
      split
      · exact .refused shrinks_purgeExpiredChallengeState
      · next certificate hc =>
        refine .issued hp hc ?_
        intro k p hk
        rw [Queued.lookup_push] at hk
        split at hk
        · next he =>
          cases hk
          exact Or.inr ⟨he, rfl⟩
        · exact Or.inl (shrinks_purgeExpiredChallengeState k p (Queued.lookup_dropWhile hk))

theorem Sound.begin (h : s.Sound) (wall : Int) (idBytes nonce : List UInt8) (protocolMajor : Nat)
    (runnerId certificatePem : String)
    (hk : s.pending.map.lookup (L.base64Encode idBytes) = none) :
    (s.begin L now wall idBytes nonce protocolMajor runnerId certificatePem).1.Sound := by
  unfold CertificateHandshakeVerifier.begin
  split
  · exact h
  · dsimp only
    split
    · exact h.purgeExpiredChallengeState
    · split
      · exact h.purgeExpiredChallengeState
      · exact h.purgeExpiredChallengeState.issue (shrinks_purgeExpiredChallengeState.none hk) _

theorem SameSettings.begin (wall : Int) (idBytes nonce : List UInt8) (protocolMajor : Nat)
    (runnerId certificatePem : String) : SameSettings s
      (s.begin L now wall idBytes nonce protocolMajor runnerId certificatePem).1 := by
  unfold CertificateHandshakeVerifier.begin
  split
  · rfl
  · dsimp only
    split
    · exact ⟨rfl, rfl, rfl, rfl, rfl⟩
    · split <;> exact ⟨rfl, rfl, rfl, rfl, rfl⟩

/-- The terms on which a proof of a pending challenge is accepted. -/
structure Accepted (L : CertificateLibrary) (s : CertificateHandshakeVerifier)
    (p : PendingCertificateChallenge) (now : Nat)
    (companionInstanceId nonceBase64 signatureBase64 : String)
    (runner : AuthenticatedCertificateRunner) : Prop where
  instance_eq : companionInstanceId = s.companionInstanceId
  nonce_eq : nonceBase64 = p.nonceBase64
  in_time : now ≤ p.issuedMonotonicMs + s.deadlineMs
  signed : verifyCertificateSignature L p.certificate
    (proofBytes s.protocolMajor s.companionInstanceId p.nonceBase64 p.runnerId) signatureBase64
    runner.signatureAlgorithm = .ok ()
  runner_eq : runner.runnerId = p.certificate.runnerId
  fingerprint_eq : runner.certificateSha256Fingerprint = p.certificate.fingerprintSha256

theorem accepted_of_checkProof {p : PendingCertificateChallenge}
    {runnerId companionInstanceId nonceBase64 signatureBase64 : String}
    {algorithm : Except CertificateError CompanionProofSignatureAlgorithm}
    {runner : AuthenticatedCertificateRunner}
    (h : s.checkProof L p now runnerId companionInstanceId nonceBase64 signatureBase64 algorithm =
      .ok runner) :
    Accepted L s p now companionInstanceId nonceBase64 signatureBase64 runner ∧
      p.runnerId = runnerId := by
  unfold checkProof at h
  split at h
  · cases h
  next hr =>
  split at h
  · cases h
  next hi =>
  split at h
  · cases h
  next hn =>
  split at h
  · cases h
  next ht =>
  split at h
  · cases h
  next a _ =>
  split at h
  · cases h
  next hv =>
  obtain rfl := Decidable.of_not_not hr
  cases h
  exact ⟨⟨Decidable.of_not_not hi, Decidable.of_not_not hn, by omega, hv, rfl, rfl⟩, rfl⟩

/-- What a verification does: it takes the challenge out of the pending ones before it looks at
the proof, or finds no challenge. -/
inductive Verifies (L : CertificateLibrary) (s : CertificateHandshakeVerifier)
    (now : Nat) (challengeId companionInstanceId nonceBase64 signatureBase64 : String) :
    CertificateHandshakeVerifier ×
      Except CertificateHandshakeError AuthenticatedCertificateRunner → Prop
  | refused {t : CertificateHandshakeVerifier} {e : CertificateHandshakeError} :
    Shrinks s t → Verifies L s now challengeId companionInstanceId nonceBase64 signatureBase64
      (t, .error e)
  | authenticated {t : CertificateHandshakeVerifier} {p : PendingCertificateChallenge}
      {runner : AuthenticatedCertificateRunner} :
    Shrinks s t → s.pending.map.lookup challengeId = some p →
    t.pending.map.lookup challengeId = none →
    Accepted L s p now companionInstanceId nonceBase64 signatureBase64 runner →
    Verifies L s now challengeId companionInstanceId nonceBase64 signatureBase64 (t, .ok runner)

theorem verifies (s : CertificateHandshakeVerifier) (now : Nat)
    (runnerId challengeId companionInstanceId nonceBase64 signatureBase64 : String)
    (algorithm : Except CertificateError CompanionProofSignatureAlgorithm) :
    Verifies L s now challengeId companionInstanceId nonceBase64 signatureBase64
      (s.verifyWithAlgorithmResult L now runnerId challengeId companionInstanceId nonceBase64
        signatureBase64 algorithm) := by
  unfold verifyWithAlgorithmResult
  dsimp only
  split
  · exact .refused fun _ _ h => h
  · split
    · exact .refused fun _ _ h => h
    · next p hp =>
      have hs : ∀ k q, (s.pending.remove challengeId).map.lookup k = some q →
          s.pending.map.lookup k = some q := by
        intro k q hk
        rw [Queued.lookup_remove] at hk
        split at hk
        · cases hk
        · exact hk
      generalize hr : checkProof L _ p now runnerId companionInstanceId nonceBase64
        signatureBase64 algorithm = result
      cases result with
      | error e => exact .refused hs
      | ok runner =>
        obtain ⟨⟨hi, hn, ht, hv, hu, hf⟩, -⟩ := accepted_of_checkProof hr
        exact .authenticated hs hp (by simp [consumeChallenge, enforceConsumedCapacity])
          ⟨hi, hn, ht, hv, hu, hf⟩

theorem Sound.verifyWithAlgorithmResult (h : s.Sound)
    (runnerId challengeId companionInstanceId nonceBase64 signatureBase64 : String)
    (algorithm : Except CertificateError CompanionProofSignatureAlgorithm) :
    (s.verifyWithAlgorithmResult L now runnerId challengeId companionInstanceId nonceBase64
      signatureBase64 algorithm).1.Sound := by
  have hc : (s.purgeExpiredConsumedChallenges now).Sound := h.purgeExpiredConsumedChallenges
  unfold CertificateHandshakeVerifier.verifyWithAlgorithmResult
  dsimp only
  split
  · exact hc
  · next hn =>
    split
    · exact hc
    · exact hc.consumeChallenge (Decidable.of_not_not hn)

theorem SameSettings.verifyWithAlgorithmResult (now : Nat)
    (runnerId challengeId companionInstanceId nonceBase64 signatureBase64 : String)
    (algorithm : Except CertificateError CompanionProofSignatureAlgorithm) : SameSettings s
      (s.verifyWithAlgorithmResult L now runnerId challengeId companionInstanceId nonceBase64
        signatureBase64 algorithm).1 := by
  unfold CertificateHandshakeVerifier.verifyWithAlgorithmResult
  dsimp only
  split
  · exact ⟨rfl, rfl, rfl, rfl, rfl⟩
  · split <;> exact ⟨rfl, rfl, rfl, rfl, rfl⟩

theorem verifyPending_cases (s : CertificateHandshakeVerifier) (now later : Nat)
    (challengeId companionInstanceId nonceBase64 signatureBase64 : String)
    (algorithm : Except CertificateError CompanionProofSignatureAlgorithm) :
    (∃ e, s.verifyPendingChallengeWithAlgorithmResult L now later challengeId
      companionInstanceId nonceBase64 signatureBase64 algorithm =
        (s.purgeExpiredConsumedChallenges now, .error e)) ∨
    ∃ runnerId, s.verifyPendingChallengeWithAlgorithmResult L now later challengeId
      companionInstanceId nonceBase64 signatureBase64 algorithm =
        (s.purgeExpiredConsumedChallenges now).verifyWithAlgorithmResult L later runnerId
          challengeId companionInstanceId nonceBase64 signatureBase64 algorithm := by
  unfold verifyPendingChallengeWithAlgorithmResult
  dsimp only
  split
  · exact Or.inl ⟨_, rfl⟩
  · split
    · exact Or.inl ⟨_, rfl⟩
    · exact Or.inr ⟨_, rfl⟩

/-- Purging consumed records first makes no difference to what a verification does. -/
theorem Verifies.of_purged
    {challengeId companionInstanceId nonceBase64 signatureBase64 : String} {later : Nat}
    {r : CertificateHandshakeVerifier ×
      Except CertificateHandshakeError AuthenticatedCertificateRunner}
    (h : Verifies L (s.purgeExpiredConsumedChallenges now) later challengeId companionInstanceId
      nonceBase64 signatureBase64 r) :
    Verifies L s later challengeId companionInstanceId nonceBase64 signatureBase64 r := by
  cases h with
  | refused hs => exact .refused hs
  | authenticated hs hp hn ha =>
    exact .authenticated hs hp hn
      ⟨ha.instance_eq, ha.nonce_eq, ha.in_time, ha.signed, ha.runner_eq, ha.fingerprint_eq⟩

theorem verifies_pending (s : CertificateHandshakeVerifier) (now later : Nat)
    (challengeId companionInstanceId nonceBase64 signatureBase64 : String)
    (algorithm : Except CertificateError CompanionProofSignatureAlgorithm) :
    Verifies L s later challengeId companionInstanceId nonceBase64 signatureBase64
      (s.verifyPendingChallengeWithAlgorithmResult L now later challengeId companionInstanceId
        nonceBase64 signatureBase64 algorithm) := by
  obtain ⟨e, he⟩ | ⟨runnerId, he⟩ := verifyPending_cases (L := L) s now later challengeId
    companionInstanceId nonceBase64 signatureBase64 algorithm
  · rw [he]
    exact .refused fun _ _ h => h
  · rw [he]
    exact (verifies _ _ _ _ _ _ _ _).of_purged

theorem Sound.verifyPending (h : s.Sound) (later : Nat)
    (challengeId companionInstanceId nonceBase64 signatureBase64 : String)
    (algorithm : Except CertificateError CompanionProofSignatureAlgorithm) :
    (s.verifyPendingChallengeWithAlgorithmResult L now later challengeId companionInstanceId
      nonceBase64 signatureBase64 algorithm).1.Sound := by
  obtain ⟨e, he⟩ | ⟨runnerId, he⟩ := verifyPending_cases (L := L) s now later challengeId
    companionInstanceId nonceBase64 signatureBase64 algorithm
  · rw [he]
    exact h.purgeExpiredConsumedChallenges
  · rw [he]
    exact h.purgeExpiredConsumedChallenges.verifyWithAlgorithmResult ..

theorem SameSettings.verifyPending (later : Nat)
    (challengeId companionInstanceId nonceBase64 signatureBase64 : String)
    (algorithm : Except CertificateError CompanionProofSignatureAlgorithm) : SameSettings s
    (s.verifyPendingChallengeWithAlgorithmResult L now later challengeId companionInstanceId
      nonceBase64 signatureBase64 algorithm).1 := by
  obtain ⟨e, he⟩ | ⟨runnerId, he⟩ := verifyPending_cases (L := L) s now later challengeId
    companionInstanceId nonceBase64 signatureBase64 algorithm
  · rw [he]
    exact ⟨rfl, rfl, rfl, rfl, rfl⟩
  · rw [he]
    obtain ⟨h₁, h₂, h₃, h₄, h₅⟩ := SameSettings.verifyWithAlgorithmResult (L := L)
      (s := s.purgeExpiredConsumedChallenges now) later runnerId challengeId
      companionInstanceId nonceBase64 signatureBase64 algorithm
    exact ⟨h₁, h₂, h₃, h₄, h₅⟩

end Calls

end CertificateHandshakeVerifier

/-! ## Histories -/

inductive ChallengeCall where
  | begin (protocolMajor : Nat) (runnerId certificatePem : String)
  | verify (runnerId challengeId companionInstanceId nonceBase64 signatureBase64 : String)
    (signatureAlgorithm : CompanionProofSignatureAlgorithm)
  | verifyPendingChallenge (challengeId companionInstanceId nonceBase64 signatureBase64 : String)
    (signatureAlgorithm : CompanionProofSignatureAlgorithm)
  | verifyPendingChallengeWithAlgorithmName
    (challengeId companionInstanceId nonceBase64 signatureBase64 signatureAlgorithm : String)
  | clearPendingChallenges

/-- What a call reads of its surroundings: two readings of the monotonic clock, the wall clock,
and random bytes. -/
structure Moment where
  now : Nat
  later : Nat
  wall : Int
  idBytes : List UInt8
  nonce : List UInt8

/-- The successes that a history is judged by, with what was presented. -/
inductive ChallengeEvent where
  | began (challengeId runnerId certificatePem nonceBase64 : String) (issuedAt : Nat) (wall : Int)
  | authenticated (challengeId companionInstanceId nonceBase64 signatureBase64 : String)
    (verifiedAt : Nat) (runner : AuthenticatedCertificateRunner)
  deriving DecidableEq

def ChallengeEvent.begunId : ChallengeEvent → Option String
  | .began challengeId .. => some challengeId
  | .authenticated .. => none

def ChallengeEvent.authenticatedId : ChallengeEvent → Option String
  | .began .. => none
  | .authenticated challengeId .. => some challengeId

/-- A verifier with the log of its successes, the latest first. -/
structure ChallengeWorld where
  verifier : CertificateHandshakeVerifier
  log : List ChallengeEvent

namespace ChallengeWorld

open CertificateHandshakeVerifier

variable (L : CertificateLibrary)

def afterBegin (w : ChallengeWorld) (m : Moment) (runnerId certificatePem : String) :
    CertificateHandshakeVerifier × Except CertificateHandshakeError Challenge → ChallengeWorld
  | (v, .ok challenge) => ⟨v, .began challenge.challengeId runnerId certificatePem
      (L.base64Encode challenge.nonce) m.now m.wall :: w.log⟩
  | (v, .error _) => ⟨v, w.log⟩

def afterVerify (w : ChallengeWorld) (now : Nat)
    (challengeId companionInstanceId nonceBase64 signatureBase64 : String) :
    CertificateHandshakeVerifier ×
      Except CertificateHandshakeError AuthenticatedCertificateRunner → ChallengeWorld
  | (v, .ok runner) => ⟨v, .authenticated challengeId companionInstanceId nonceBase64
      signatureBase64 now runner :: w.log⟩
  | (v, .error _) => ⟨v, w.log⟩

def step (w : ChallengeWorld) : ChallengeCall × Moment → ChallengeWorld
  | (.begin protocolMajor runnerId certificatePem, m) =>
    w.afterBegin L m runnerId certificatePem
      (w.verifier.begin L m.now m.wall m.idBytes m.nonce protocolMajor runnerId certificatePem)
  | (.verify runnerId id inst nonce signature algorithm, m) =>
    w.afterVerify m.now id inst nonce signature
      (w.verifier.verify L m.now runnerId id inst nonce signature algorithm)
  | (.verifyPendingChallenge id inst nonce signature algorithm, m) =>
    w.afterVerify m.later id inst nonce signature
      (w.verifier.verifyPendingChallenge L m.now m.later id inst nonce signature algorithm)
  | (.verifyPendingChallengeWithAlgorithmName id inst nonce signature algorithm, m) =>
    w.afterVerify m.later id inst nonce signature
      (w.verifier.verifyPendingChallengeWithAlgorithmName L m.now m.later id inst nonce signature
        algorithm)
  | (.clearPendingChallenges, _) => ⟨w.verifier.clearPendingChallenges, w.log⟩

/-- The random bytes drawn at a call name a challenge that was not issued before. -/
def Fresh (w : ChallengeWorld) (e : ChallengeCall × Moment) : Prop :=
  L.base64Encode e.2.idBytes ∉ w.log.filterMap ChallengeEvent.begunId

instance (w : ChallengeWorld) (e : ChallengeCall × Moment) : Decidable (Fresh L w e) :=
  inferInstanceAs (Decidable (_ ∉ _))

/-- What an authentication answers to: the challenge began before, and the certificate validated
then has signed its nonce, for this companion and in time. -/
def Answers (v : CertificateHandshakeVerifier) (log : List ChallengeEvent)
    (id inst nonce signature : String) (verifiedAt : Nat)
    (runner : AuthenticatedCertificateRunner) : Prop :=
  ∃ certificatePem issuedAt wall policy certificate,
    .began id runner.runnerId certificatePem nonce issuedAt wall ∈ log ∧
    v.policy runner.runnerId = some policy ∧
    validateRunnerCertificate L wall certificatePem policy = .ok certificate ∧
    runner.certificateSha256Fingerprint = certificate.fingerprintSha256 ∧
    inst = v.companionInstanceId ∧
    verifiedAt ≤ issuedAt + v.deadlineMs ∧
    verifyCertificateSignature L certificate
      (proofBytes v.protocolMajor v.companionInstanceId nonce runner.runnerId) signature
      runner.signatureAlgorithm = .ok ()

/-- Every authentication of a log answers to what came before it. -/
def Justified (v : CertificateHandshakeVerifier) : List ChallengeEvent → Prop
  | [] => True
  | .began .. :: log => Justified v log
  | .authenticated id inst nonce signature verifiedAt runner :: log =>
    Answers L v log id inst nonce signature verifiedAt runner ∧ Justified v log

/-- Where a pending challenge comes from. -/
def Issued (v : CertificateHandshakeVerifier) (log : List ChallengeEvent) (id : String)
    (p : PendingCertificateChallenge) : Prop :=
  ∃ certificatePem wall policy,
    .began id p.runnerId certificatePem p.nonceBase64 p.issuedMonotonicMs wall ∈ log ∧
    v.policy p.runnerId = some policy ∧
    validateRunnerCertificate L wall certificatePem policy = .ok p.certificate

/-- The invariant of the histories of a verifier that starts as `v`. -/
structure Inv (v : CertificateHandshakeVerifier) (w : ChallengeWorld) : Prop where
  sound : w.verifier.Sound
  settings : SameSettings v w.verifier
  issued : ∀ id p, w.verifier.pending.map.lookup id = some p → Issued L v w.log id p
  spent : ∀ id ∈ w.log.filterMap ChallengeEvent.authenticatedId,
    w.verifier.pending.map.lookup id = none ∧ id ∈ w.log.filterMap ChallengeEvent.begunId
  nodup : (w.log.filterMap ChallengeEvent.authenticatedId).Nodup
  justified : Justified L v w.log

variable {L} {v t : CertificateHandshakeVerifier} {w : ChallengeWorld}

theorem Issued.mono {log : List ChallengeEvent} {e : ChallengeEvent} {id : String}
    {p : PendingCertificateChallenge} (h : Issued L v log id p) : Issued L v (e :: log) id p := by
  obtain ⟨pem, wall, policy, hm, hp, hc⟩ := h
  exact ⟨pem, wall, policy, List.mem_cons_of_mem e hm, hp, hc⟩

theorem SameSettings.trans {s : CertificateHandshakeVerifier} (h : SameSettings v s)
    (h' : SameSettings s t) : SameSettings v t where
  protocolMajor := h'.protocolMajor.trans h.protocolMajor
  companionInstanceId := h'.companionInstanceId.trans h.companionInstanceId
  policies := h'.policies.trans h.policies
  deadlineMs := h'.deadlineMs.trans h.deadlineMs
  stateLimits := h'.stateLimits.trans h.stateLimits

namespace Inv

/-- A call without a success. -/
theorem quiet (h : Inv L v w) (hs : t.Sound) (hset : SameSettings w.verifier t)
    (hsub : Shrinks w.verifier t) : Inv L v ⟨t, w.log⟩ where
  sound := hs
  settings := SameSettings.trans h.settings hset
  issued id p hp := h.issued id p (hsub id p hp)
  spent id hid := ⟨hsub.none (h.spent id hid).1, (h.spent id hid).2⟩
  nodup := h.nodup
  justified := h.justified

theorem afterBegin (h : Inv L v w) {m : Moment} {runnerId certificatePem : String}
    {r : CertificateHandshakeVerifier × Except CertificateHandshakeError Challenge}
    (hs : r.1.Sound) (hset : SameSettings w.verifier r.1)
    (hfresh : L.base64Encode m.idBytes ∉ w.log.filterMap ChallengeEvent.begunId)
    (hr : Begins L w.verifier m.now m.wall m.idBytes m.nonce runnerId certificatePem r) :
    Inv L v (w.afterBegin L m runnerId certificatePem r) := by
  cases hr with
  | refused hsub => exact h.quiet hs hset hsub
  | issued hp hc hk =>
    refine ⟨hs, SameSettings.trans h.settings hset, ?_, ?_, h.nodup, h.justified⟩
    · intro id p hid
      obtain hold | ⟨rfl, rfl⟩ := hk id p hid
      · exact (h.issued id p hold).mono
      · refine ⟨certificatePem, m.wall, _, List.mem_cons_self, ?_, hc⟩
        rw [← h.settings.policy_eq]
        exact hp
    · intro id hid
      obtain ⟨hnone, hbegun⟩ := h.spent id hid
      refine ⟨?_, List.mem_cons_of_mem _ hbegun⟩
      rw [Option.eq_none_iff_forall_ne_some]
      intro p hl
      obtain hold | ⟨rfl, -⟩ := hk id p hl
      · rw [hnone] at hold
        cases hold
      · exact hfresh hbegun

theorem afterVerify (h : Inv L v w) {now : Nat} {id inst nonce signature : String}
    {r : CertificateHandshakeVerifier ×
      Except CertificateHandshakeError AuthenticatedCertificateRunner}
    (hs : r.1.Sound) (hset : SameSettings w.verifier r.1)
    (hr : Verifies L w.verifier now id inst nonce signature r) :
    Inv L v (w.afterVerify now id inst nonce signature r) := by
  cases hr with
  | refused hsub => exact h.quiet hs hset hsub
  | @authenticated t p runner hsub hp hn ha =>
    obtain ⟨pem, wall, policy, hm, hpol, hc⟩ := h.issued id p hp
    have hrun : runner.runnerId = p.runnerId := by
      rw [ha.runner_eq, runnerId_of_validate hc]
      have := List.find?_some hpol
      simpa using this
    have hbegun : id ∈ w.log.filterMap ChallengeEvent.begunId :=
      List.mem_filterMap.mpr ⟨_, hm, rfl⟩
    refine ⟨hs, SameSettings.trans h.settings hset, fun k q hk => (h.issued k q
      (hsub k q hk)).mono, ?_, ?_, ?_⟩
    · intro k hk
      obtain rfl | hk := List.mem_cons.mp hk
      · exact ⟨hn, hbegun⟩
      · exact ⟨hsub.none (h.spent k hk).1, (h.spent k hk).2⟩
    · refine List.nodup_cons.mpr ⟨?_, h.nodup⟩
      intro hid
      rw [(h.spent id hid).1] at hp
      cases hp
    · refine ⟨⟨pem, p.issuedMonotonicMs, wall, policy, p.certificate, ?_, ?_, hc,
        ha.fingerprint_eq, ?_, ?_, ?_⟩, h.justified⟩
      · rw [hrun, ha.nonce_eq]
        exact hm
      · rw [hrun]
        exact hpol
      · rw [ha.instance_eq, h.settings.companionInstanceId]
      · rw [← h.settings.deadlineMs]
        exact ha.in_time
      · rw [hrun, ha.nonce_eq, ← h.settings.protocolMajor, ← h.settings.companionInstanceId]
        exact ha.signed

theorem step (h : Inv L v w) {e : ChallengeCall × Moment} (hfresh : Fresh L w e) :
    Inv L v (w.step L e) := by
  obtain ⟨call, m⟩ := e
  cases call with
  | begin protocolMajor runnerId pem =>
    have hk : w.verifier.pending.map.lookup (L.base64Encode m.idBytes) = none := by
      rw [Option.eq_none_iff_forall_ne_some]
      intro p hl
      obtain ⟨_, _, _, hm, -⟩ := h.issued _ p hl
      exact hfresh (List.mem_filterMap.mpr ⟨_, hm, rfl⟩)
    exact h.afterBegin (h.sound.begin m.wall m.idBytes m.nonce protocolMajor runnerId pem hk)
      (SameSettings.begin ..) hfresh (begins ..)
  | verify runnerId id inst nonce signature algorithm =>
    exact h.afterVerify (h.sound.verifyWithAlgorithmResult ..)
      (SameSettings.verifyWithAlgorithmResult ..) (verifies ..)
  | verifyPendingChallenge id inst nonce signature algorithm =>
    exact h.afterVerify (h.sound.verifyPending ..) (SameSettings.verifyPending ..)
      (verifies_pending ..)
  | verifyPendingChallengeWithAlgorithmName id inst nonce signature algorithm =>
    exact h.afterVerify (h.sound.verifyPending ..) (SameSettings.verifyPending ..)
      (verifies_pending ..)
  | clearPendingChallenges =>
    refine h.quiet h.sound.clearPendingChallenges ⟨rfl, rfl, rfl, rfl, rfl⟩ ?_
    intro id p hp
    cases hp

end Inv

/-- The world of a verifier that was just built. -/
def new (protocolMajor : Nat) (companionInstanceId : String)
    (policies : List RunnerCertificatePolicy) (deadlineMs : Nat)
    (limits : CertificateChallengeStateLimits) : ChallengeWorld :=
  ⟨withChallengeStateLimits protocolMajor companionInstanceId policies deadlineMs limits, []⟩

/-- In every history in which the identifiers drawn for challenges are fresh, the maps and the
queues hold the same keys within their limits, no challenge authenticates a Runner twice, and
every authentication answers to the challenge it is for. -/
theorem challenges_are_used_once (L : CertificateLibrary) (protocolMajor : Nat)
    (companionInstanceId : String) (policies : List RunnerCertificatePolicy) (deadlineMs : Nat)
    (limits : CertificateChallengeStateLimits) (calls : List (ChallengeCall × Moment))
    (hfresh : Meets (step L) (Fresh L)
      (new protocolMajor companionInstanceId policies deadlineMs limits) calls) :
    let start := new protocolMajor companionInstanceId policies deadlineMs limits
    let w := calls.foldl (step L) start
    w.verifier.pending.InStep ∧ w.verifier.consumed.InStep ∧
    w.verifier.pending.len ≤ max limits.maxPending 1 ∧
    w.verifier.consumed.len ≤ max limits.maxConsumed 1 ∧
    (w.log.filterMap ChallengeEvent.authenticatedId).Nodup ∧
    Justified L start.verifier w.log := by
  intro start w
  have hstart : Inv L start.verifier start :=
    ⟨Sound.new .., .refl, nofun, nofun, List.nodup_nil, trivial⟩
  have h : Inv L start.verifier w := hfresh.foldl (fun _ _ hf hi => hi.step hf) hstart
  have hlimits := h.settings.stateLimits
  refine ⟨h.sound.pending, h.sound.consumed, ?_, ?_, h.nodup, h.justified⟩
  · have hle := h.sound.pending_le
    rw [hlimits] at hle
    exact hle
  · have hle := h.sound.consumed_le
    rw [hlimits] at hle
    exact hle

/-! ### A handshake -/

/-- A library with one certificate, whose digests and texts are short and whose key accepts the
signature that decodes to a single byte. -/
def shortLibrary : CertificateLibrary where
  parseX509Pem _ := none
  fromDer _ := some ⟨"ca", "ca", 0, 100, [], "1.2.840.10045.2.1", some (some true), some none,
    [true], ["runner-1"]⟩
  verifySignature _ _ := true
  sha256Hex _ := "ab"
  base64Encode bytes := String.ofList (bytes.map fun b => Char.ofNat b.toNat)
  base64Decode text := some (text.toList.map fun c => UInt8.ofNat c.toNat)
  verifyProof _ _ _ signature := if signature = [1] then .ok () else .error .badSignature

def shortPolicy : RunnerCertificatePolicy := ⟨"r", "ab", "runner-1", [], some "ab"⟩

def beginAt (now : Nat) (id : UInt8) : ChallengeCall × Moment :=
  (.begin 1 "r" "", ⟨now, now, 50, [id], [id]⟩)

def verifyAt (now : Nat) (id : String) : ChallengeCall × Moment :=
  (.verify "r" id "c" id "\u0001" .ecdsaP256Sha256, ⟨now, now, 50, [], []⟩)

/-- A limit of zero still leaves room for one pending challenge. -/
theorem zero_limit_holds_one :
    (⟨0, 0⟩ : CertificateChallengeStateLimits).maxPending <
      ((new 1 "c" [shortPolicy] 10 ⟨0, 0⟩).step shortLibrary
        (beginAt 0 65)).verifier.pending.len := by
  decide

/-- A challenge that is answered twice, after its consumed record was evicted by a second one. -/
def replay : List (ChallengeCall × Moment) :=
  [beginAt 0 65, verifyAt 5 "A", beginAt 6 66, verifyAt 7 "B", verifyAt 8 "A"]

/-- The replay authenticates each of the two challenges once. -/
theorem replay_authenticates_once :
    let start := new 1 "c" [shortPolicy] 10 ⟨1, 1⟩
    let w := replay.foldl (step shortLibrary) start
    w.log.filterMap ChallengeEvent.authenticatedId = ["B", "A"] ∧
      w.verifier.consumed.len ≤ 1 ∧ Justified shortLibrary start.verifier w.log := by
  have h := challenges_are_used_once shortLibrary 1 "c" [shortPolicy] 10 ⟨1, 1⟩ replay
    (by decide)
  exact ⟨by decide, h.2.2.2.1, h.2.2.2.2.2⟩

end ChallengeWorld

end Qualigence.Desktop
