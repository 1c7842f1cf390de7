import Qualigence.Foundation.Program
import Qualigence.Protocol.Value

/-! # Runner certificates at the companion

A Runner shows a chain of X.509 certificates when it begins a handshake and signs the challenge
with the key of the first one. The parser, the signature schemes and the digests come from
libraries; the checks on what the parser reads are the companion's own.
-/

namespace Qualigence.Desktop

open Foundation (bind_eq_ok)
open Protocol (utf8Bytes)

inductive CompanionProofSignatureAlgorithm where
  | ecdsaP256Sha256
  | rsaPssSha256
  deriving DecidableEq

inductive CertificateError where
  | malformedCertificate
  | expiredCertificate
  | missingClientAuthEku
  | missingRunnerSan
  | fingerprintMismatch
  | chainRejected
  | unsupportedKeyAlgorithm
  | signatureAlgorithmMismatch
  | malformedSignature
  | badSignature
  deriving DecidableEq

namespace CompanionProofSignatureAlgorithm

def parse (value : String) : Except CertificateError CompanionProofSignatureAlgorithm :=
  if value = "ecdsa-p256-sha256" then .ok .ecdsaP256Sha256
  else if value = "rsa-pss-sha256" then .ok .rsaPssSha256
  else .error .unsupportedKeyAlgorithm

end CompanionProofSignatureAlgorithm

structure RunnerCertificatePolicy where
  runnerId : String
  expectedFingerprintSha256 : String
  requiredSan : String
  requiredScopeSans : List String
  trustedIssuerFingerprintSha256 : Option String
  deriving DecidableEq

structure ValidatedRunnerCertificate where
  runnerId : String
  fingerprintSha256 : String
  publicKeyAlgorithm : CompanionProofSignatureAlgorithm
  der : List UInt8
  deriving DecidableEq

/-- What the parser reads of a certificate. An extension that does not parse is `none`, one that
is absent is `some none`. -/
structure X509Certificate where
  subject : String
  issuer : String
  notBefore : Int
  notAfter : Int
  subjectPki : List UInt8
  publicKeyOid : String
  /-- The `ca` flag of the basic constraints. -/
  basicConstraints : Option (Option Bool)
  /-- The `keyCertSign` flag of the key usage. -/
  keyUsage : Option (Option Bool)
  /-- The `clientAuth` flags of the extended key usages. -/
  clientAuth : List Bool
  /-- The DNS names, URIs and mail addresses among the subject alternative names. -/
  generalNames : List String

/-- The libraries behind the handshake. -/
structure CertificateLibrary where
  /-- The contents of the first PEM block of a text and the rest of the text. -/
  parseX509Pem : List UInt8 → Option (List UInt8 × List UInt8)
  fromDer : List UInt8 → Option X509Certificate
  /-- Whether the signature of a certificate is one by the given key, its own when `none`. -/
  verifySignature : X509Certificate → Option (List UInt8) → Bool
  sha256Hex : List UInt8 → String
  base64Encode : List UInt8 → String
  base64Decode : String → Option (List UInt8)
  /-- The outcome of the signature scheme for a key, a message and a signature. -/
  verifyProof : CompanionProofSignatureAlgorithm → List UInt8 → List UInt8 → List UInt8 →
    Except CertificateError Unit

def eqIgnoreAsciiCase (s t : String) : Bool :=
  decide (s.toList.map Char.toLower = t.toList.map Char.toLower)

def isAsciiWhitespace (b : UInt8) : Bool := b.toNat ∈ [0x20, 0x09, 0x0A, 0x0C, 0x0D]

def proofBytes (protocolMajor : Nat) (companionInstanceId nonceBase64 runnerId : String) :
    List UInt8 :=
  utf8Bytes ("qualigence-companion-proof/v1\n" ++ toString protocolMajor ++ "\n" ++
    companionInstanceId ++ "\n" ++ nonceBase64 ++ "\n" ++ runnerId ++ "\n")

section Validation

variable (L : CertificateLibrary)

/-- The blocks of a PEM text; each takes at least one byte of it, so that the bytes bound the
number of rounds. -/
def pemBlocks : Nat → List UInt8 → Except CertificateError (List (List UInt8))
  | 0, _ => .ok []
  | rounds + 1, rest =>
    if rest.any fun byte => !isAsciiWhitespace byte then
      match L.parseX509Pem rest with
      | none => .error .malformedCertificate
      | some (contents, remaining) => (pemBlocks rounds remaining).map (contents :: ·)
    else .ok []

def certificateChainDer (input : List UInt8) : Except CertificateError (List (List UInt8)) :=
  if (utf8Bytes "-----BEGIN").isPrefixOf input then do
    let chain ← pemBlocks L input.length input
    if chain.isEmpty then .error .malformedCertificate else .ok chain
  else .ok [input]

def parseCertificateChain (chainDer : List (List UInt8)) :
    Except CertificateError (List X509Certificate) :=
  chainDer.mapM fun der =>
    match L.fromDer der with
    | some cert => .ok cert
    | none => .error .malformedCertificate

def isCertificateAuthority (cert : X509Certificate) : Except CertificateError Bool :=
  match cert.basicConstraints with
  | some (some ca) =>
    if !ca then .ok false
    else
      match cert.keyUsage with
      | none => .error .chainRejected
      | some none => .ok true
      | some (some keyCertSign) => .ok keyCertSign
  | _ => .error .chainRejected

/-- Each certificate of a path is issued and signed by the next one, an authority. -/
def validatePairs : List X509Certificate → Except CertificateError Unit
  | subject :: issuer :: rest => do
    if subject.issuer ≠ issuer.subject then .error .chainRejected
    else
      let authority ← isCertificateAuthority issuer
      if !authority then .error .chainRejected
      else if !L.verifySignature subject (some issuer.subjectPki) then .error .chainRejected
      else validatePairs (issuer :: rest)
  | _ => .ok ()

def validateChainPath (now : Int) (certificates : List X509Certificate)
    (chainDer : List (List UInt8)) (policy : RunnerCertificatePolicy) :
    Except CertificateError Unit :=
  if certificates.isEmpty then .error .malformedCertificate
  else if certificates.any fun c => !(decide (c.notBefore ≤ now) && decide (now ≤ c.notAfter)) then
    .error .expiredCertificate
  else
    match policy.trustedIssuerFingerprintSha256, certificates.getLast?, chainDer.getLast? with
    | some trusted, some trustAnchor, some trustAnchorDer =>
      if !eqIgnoreAsciiCase trusted (L.sha256Hex trustAnchorDer) then .error .chainRejected
      else if certificates.length = 1 then
        if trustAnchor.subject ≠ trustAnchor.issuer || !L.verifySignature trustAnchor none then
          .error .chainRejected
        else .ok ()
      else do
        validatePairs L certificates
        if trustAnchor.subject ≠ trustAnchor.issuer || !L.verifySignature trustAnchor none then
          .error .chainRejected
        else
          let authority ← isCertificateAuthority trustAnchor
          if !authority then .error .chainRejected else .ok ()
    | _, _, _ => .error .chainRejected

def hasRequiredSan (cert : X509Certificate) (required : String) : Bool :=
  cert.generalNames.any fun value => eqIgnoreAsciiCase value required

def publicKeyAlgorithm (cert : X509Certificate) :
    Except CertificateError CompanionProofSignatureAlgorithm :=
  if cert.publicKeyOid = "1.2.840.10045.2.1" then .ok .ecdsaP256Sha256
  else if cert.publicKeyOid = "1.2.840.113549.1.1.1" then .ok .rsaPssSha256
  else .error .unsupportedKeyAlgorithm

def validateRunnerCertificate (now : Int) (certificatePem : String)
    (policy : RunnerCertificatePolicy) : Except CertificateError ValidatedRunnerCertificate := do
  let chainDer ← certificateChainDer L (utf8Bytes certificatePem)
  let certificates ← parseCertificateChain L chainDer
  match chainDer.head?, certificates.head? with
  | some der, some cert =>
    validateChainPath L now certificates chainDer policy
    if !cert.clientAuth.any id then .error .missingClientAuthEku
    else if !hasRequiredSan cert policy.requiredSan
        || policy.requiredScopeSans.any fun required => !hasRequiredSan cert required then
      .error .missingRunnerSan
    else if !eqIgnoreAsciiCase (L.sha256Hex der) policy.expectedFingerprintSha256 then
      .error .fingerprintMismatch
    else
      let algorithm ← publicKeyAlgorithm cert
      .ok ⟨policy.runnerId, L.sha256Hex der, algorithm, der⟩
  | _, _ => .error .malformedCertificate

def verifyCertificateSignature (certificate : ValidatedRunnerCertificate) (proof : List UInt8)
    (signatureBase64 : String) (signatureAlgorithm : CompanionProofSignatureAlgorithm) :
    Except CertificateError Unit :=
  if signatureAlgorithm ≠ certificate.publicKeyAlgorithm then .error .signatureAlgorithmMismatch
  else
    match L.fromDer certificate.der, L.base64Decode signatureBase64 with
    | some cert, some signature =>
      L.verifyProof signatureAlgorithm cert.subjectPki proof signature
    | some _, none => .error .malformedSignature
    | none, _ => .error .malformedCertificate

variable {L}

/-- A validated certificate is one for the Runner of the policy. -/
theorem runnerId_of_validate {now : Int} {pem : String} {policy : RunnerCertificatePolicy}
    {certificate : ValidatedRunnerCertificate}
    (h : validateRunnerCertificate L now pem policy = .ok certificate) :
    certificate.runnerId = policy.runnerId := by
  obtain ⟨chainDer, -, h⟩ := bind_eq_ok.mp h
  obtain ⟨certificates, -, h⟩ := bind_eq_ok.mp h
  split at h
  · obtain ⟨_, -, h⟩ := bind_eq_ok.mp h
    split at h
    · cases h
    · split at h
      · cases h
      · split at h
        · cases h
        · obtain ⟨algorithm, -, h⟩ := bind_eq_ok.mp h
          cases h
          rfl
  · cases h

end Validation

end Qualigence.Desktop
