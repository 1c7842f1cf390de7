import Qualigence.Desktop.Certificate
import Qualigence.Foundation.History
import Qualigence.Foundation.Queued

/-! # Handshake challenges of the companion

A Runner begins a handshake with its certificate and proves itself by a signature over the nonce
of the challenge. Pending challenges and consumed ones are kept in maps with insertion queues
that are purged by age and bounded in size.
-/

namespace Qualigence.Desktop

open Foundation

structure PendingCertificateChallenge where
  runnerId : String
  nonceBase64 : String
  issuedMonotonicMs : Nat
  certificate : ValidatedRunnerCertificate
  deriving DecidableEq

structure CertificateChallengeStateLimits where
  maxPending : Nat
  maxConsumed : Nat

/-- Limits that leave room for one challenge. -/
structure BoundedLimits extends CertificateChallengeStateLimits where
  pending_pos : 0 < maxPending
  consumed_pos : 0 < maxConsumed

def CertificateChallengeStateLimits.bounded (limits : CertificateChallengeStateLimits) :
    BoundedLimits where
  maxPending := max limits.maxPending 1
  maxConsumed := max limits.maxConsumed 1
  pending_pos := by omega
  consumed_pos := by omega

structure AuthenticatedCertificateRunner where
  runnerId : String
  certificateSha256Fingerprint : String
  signatureAlgorithm : CompanionProofSignatureAlgorithm
  deriving DecidableEq

inductive CertificateHandshakeError where
  | unknownRunner
  | unknownChallenge
  | runnerMismatch
  | companionInstanceMismatch
  | nonceMismatch
  | replayedChallenge
  | expired
  | wrongProtocol
  | certificate (error : CertificateError)
  deriving DecidableEq

structure Challenge where
  challengeId : String
  nonce : List UInt8
  deriving DecidableEq

/-- The verifier. `pending` holds the source's `pending` and `pending_order`, `consumed` its
`consumed_challenges` and `consumed_order`. -/
structure CertificateHandshakeVerifier where
  protocolMajor : Nat
  companionInstanceId : String
  policies : List RunnerCertificatePolicy
  pending : Queued String PendingCertificateChallenge
  consumed : Queued String Nat
  deadlineMs : Nat
  stateLimits : BoundedLimits

namespace CertificateHandshakeVerifier

def withChallengeStateLimits (protocolMajor : Nat) (companionInstanceId : String)
    (policies : List RunnerCertificatePolicy) (deadlineMs : Nat)
    (stateLimits : CertificateChallengeStateLimits) : CertificateHandshakeVerifier where
  protocolMajor
  companionInstanceId
  policies
  pending := .empty
  consumed := .empty
  deadlineMs
  stateLimits := stateLimits.bounded

/-- The policy of a Runner; a later one replaces an earlier one. -/
def policy (s : CertificateHandshakeVerifier) (runnerId : String) :
    Option RunnerCertificatePolicy :=
  s.policies.reverse.find? fun p => decide (p.runnerId = runnerId)

def purgeExpiredPendingChallenges (s : CertificateHandshakeVerifier) (now : Nat) :
    CertificateHandshakeVerifier :=
  { s with pending := s.pending.dropWhile fun pending challengeId =>
      match pending.lookup challengeId with
      | some p => decide (now - p.issuedMonotonicMs > s.deadlineMs)
      | none => true }

def purgeExpiredConsumedChallenges (s : CertificateHandshakeVerifier) (now : Nat) :
    CertificateHandshakeVerifier :=
  { s with consumed := s.consumed.dropWhile fun consumed challengeId =>
      match consumed.lookup challengeId with
      | some consumedAt => decide (now - consumedAt > s.deadlineMs)
      | none => true }

def purgeExpiredChallengeState (s : CertificateHandshakeVerifier) (now : Nat) :
    CertificateHandshakeVerifier :=
  (s.purgeExpiredPendingChallenges now).purgeExpiredConsumedChallenges now

def enforcePendingCapacityForInsert (s : CertificateHandshakeVerifier) :
    CertificateHandshakeVerifier :=
  { s with pending := s.pending.dropWhile fun pending _ =>
      decide (s.stateLimits.maxPending ≤ pending.keys.length) }

def enforceConsumedCapacity (s : CertificateHandshakeVerifier) : CertificateHandshakeVerifier :=
  { s with consumed := s.consumed.dropWhile fun consumed _ =>
      decide (s.stateLimits.maxConsumed + 1 ≤ consumed.keys.length) }

def consumeChallenge (s : CertificateHandshakeVerifier) (challengeId : String) (now : Nat) :
    CertificateHandshakeVerifier :=
  enforceConsumedCapacity { s with consumed := s.consumed.push challengeId now }

def clearPendingChallenges (s : CertificateHandshakeVerifier) : CertificateHandshakeVerifier :=
  { s with pending := .empty }

section Calls

variable (L : CertificateLibrary)

/-- `begin` with the monotonic and the wall clock, the random bytes of the identifier and those
of the nonce. -/
def begin (s : CertificateHandshakeVerifier) (now : Nat) (wall : Int)
    (idBytes nonce : List UInt8) (protocolMajor : Nat) (runnerId certificatePem : String) :
    CertificateHandshakeVerifier × Except CertificateHandshakeError Challenge :=
  if protocolMajor ≠ s.protocolMajor then (s, .error .wrongProtocol)
  else
    let s := s.purgeExpiredChallengeState now
    match s.policy runnerId with
    | none => (s, .error .unknownRunner)
    | some policy =>
      match validateRunnerCertificate L wall certificatePem policy with
      | .error e => (s, .error (.certificate e))
      | .ok certificate =>
        let s := s.enforcePendingCapacityForInsert
        let challengeId := L.base64Encode idBytes
        let pending : PendingCertificateChallenge :=
          ⟨runnerId, L.base64Encode nonce, now, certificate⟩
        ({ s with pending := s.pending.push challengeId pending }, .ok ⟨challengeId, nonce⟩)

/-- The checks on a pending challenge that has been taken out of the store. -/
def checkProof (s : CertificateHandshakeVerifier) (pending : PendingCertificateChallenge)
    (now : Nat) (runnerId companionInstanceId nonceBase64 signatureBase64 : String)
    (signatureAlgorithm : Except CertificateError CompanionProofSignatureAlgorithm) :
    Except CertificateHandshakeError AuthenticatedCertificateRunner :=
  if pending.runnerId ≠ runnerId then .error .runnerMismatch
  else if companionInstanceId ≠ s.companionInstanceId then .error .companionInstanceMismatch
  else if nonceBase64 ≠ pending.nonceBase64 then .error .nonceMismatch
  else if now - pending.issuedMonotonicMs > s.deadlineMs then .error .expired
  else
    match signatureAlgorithm with
    | .error e => .error (.certificate e)
    | .ok algorithm =>
      match verifyCertificateSignature L pending.certificate
          (proofBytes s.protocolMajor s.companionInstanceId pending.nonceBase64 runnerId)
          signatureBase64 algorithm with
      | .error e => .error (.certificate e)
      | .ok () =>
        .ok ⟨pending.certificate.runnerId, pending.certificate.fingerprintSha256, algorithm⟩

def verifyWithAlgorithmResult (s : CertificateHandshakeVerifier) (now : Nat)
    (runnerId challengeId companionInstanceId nonceBase64 signatureBase64 : String)
    (signatureAlgorithm : Except CertificateError CompanionProofSignatureAlgorithm) :
    CertificateHandshakeVerifier ×
      Except CertificateHandshakeError AuthenticatedCertificateRunner :=
  let s := s.purgeExpiredConsumedChallenges now
  if s.consumed.map.lookup challengeId ≠ none then (s, .error .replayedChallenge)
  else
    match s.pending.map.lookup challengeId with
    | none => (s, .error .unknownChallenge)
    | some pending =>
      let s := { s with pending := s.pending.remove challengeId }
      let s := s.consumeChallenge challengeId now
      (s, s.checkProof L pending now runnerId companionInstanceId nonceBase64 signatureBase64
        signatureAlgorithm)

def verify (s : CertificateHandshakeVerifier) (now : Nat)
    (runnerId challengeId companionInstanceId nonceBase64 signatureBase64 : String)
    (signatureAlgorithm : CompanionProofSignatureAlgorithm) :
    CertificateHandshakeVerifier ×
      Except CertificateHandshakeError AuthenticatedCertificateRunner :=
  s.verifyWithAlgorithmResult L now runnerId challengeId companionInstanceId nonceBase64
    signatureBase64 (.ok signatureAlgorithm)

/-- The clock is read once here, as `now`, and once more in the verification, as `later`. -/
def verifyPendingChallengeWithAlgorithmResult (s : CertificateHandshakeVerifier)
    (now later : Nat) (challengeId companionInstanceId nonceBase64 signatureBase64 : String)
    (signatureAlgorithm : Except CertificateError CompanionProofSignatureAlgorithm) :
    CertificateHandshakeVerifier ×
      Except CertificateHandshakeError AuthenticatedCertificateRunner :=
  let s := s.purgeExpiredConsumedChallenges now
  if s.consumed.map.lookup challengeId ≠ none then (s, .error .replayedChallenge)
  else
    match s.pending.map.lookup challengeId with
    | none => (s, .error .unknownChallenge)
    | some pending =>
      s.verifyWithAlgorithmResult L later pending.runnerId challengeId companionInstanceId
        nonceBase64 signatureBase64 signatureAlgorithm

def verifyPendingChallenge (s : CertificateHandshakeVerifier) (now later : Nat)
    (challengeId companionInstanceId nonceBase64 signatureBase64 : String)
    (signatureAlgorithm : CompanionProofSignatureAlgorithm) :
    CertificateHandshakeVerifier ×
      Except CertificateHandshakeError AuthenticatedCertificateRunner :=
  s.verifyPendingChallengeWithAlgorithmResult L now later challengeId companionInstanceId
    nonceBase64 signatureBase64 (.ok signatureAlgorithm)

def verifyPendingChallengeWithAlgorithmName (s : CertificateHandshakeVerifier)
    (now later : Nat) (challengeId companionInstanceId nonceBase64 signatureBase64 : String)
    (signatureAlgorithm : String) :
    CertificateHandshakeVerifier ×
      Except CertificateHandshakeError AuthenticatedCertificateRunner :=
  s.verifyPendingChallengeWithAlgorithmResult L now later challengeId companionInstanceId
    nonceBase64 signatureBase64 (CompanionProofSignatureAlgorithm.parse signatureAlgorithm)

end Calls

end CertificateHandshakeVerifier

end Qualigence.Desktop
