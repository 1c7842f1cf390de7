import Qualigence.Protocol.Buffers
import Qualigence.Skill.Bundle

/-! # The local skill signer

Signing covers the fields of the manifest, the digest among them, and verification compares that
digest with the content of the payload. With a key that signs for nobody else and an injective
digest, a bundle that verifies has the signed fields of a bundle that was signed, and its compiled
content where that bundle carried its own digest. The number, the state and the recorded digest of
the payload are covered by neither.
-/

namespace Qualigence.Skill

open Protocol

/-- The key pair of a signer, with the two operations of `node:crypto` on it, which may throw. -/
structure LocalSkillSigner where
  keyId : String
  edSign : List UInt8 → Option (List UInt8)
  edVerify : List UInt8 → List UInt8 → Option Bool

structure SkillSigningError where
  message : String
  deriving DecidableEq

inductive InvalidCode where
  | skillSignatureInvalid
  | skillTargetMismatch
  | skillBundleExpired
  | skillContentTampered
  deriving DecidableEq

inductive SkillSignatureVerification where
  | valid
  | invalid (code : InvalidCode) (message : String)
  deriving DecidableEq

/-- The scope a bundle is verified for. -/
structure SkillVerificationScope where
  projectId : String
  targetId : String
  origin : Option String
  now : Option String

def checkScope (payload : ProcedureSkillVersion) (manifest : SkillBundleManifest)
    (scope : SkillVerificationScope) : Option SkillSignatureVerification :=
  if payload.projectId ≠ scope.projectId then
    some (.invalid .skillTargetMismatch
      s!"Bundle project {payload.projectId} does not match scope {scope.projectId}.")
  else if payload.targetScope.targetId ≠ scope.targetId then
    some (.invalid .skillTargetMismatch
      s!"Bundle target {payload.targetScope.targetId} does not match scope {scope.targetId}.")
  else
    let origin := scope.origin.filter fun origin =>
      payload.targetScope.allowedOrigins ≠ [] ∧ origin ∉ payload.targetScope.allowedOrigins
    let expired := manifest.expiresAt.filter fun expiresAt =>
      scope.now.any fun now => utf16Le expiresAt now
    match origin, expired with
    | some origin, _ =>
      some (.invalid .skillTargetMismatch s!"Origin {origin} is not allowed by the Bundle scope.")
    | none, some expiresAt => some (.invalid .skillBundleExpired s!"Bundle expired at {expiresAt}.")
    | none, none => none

namespace LocalSkillSigner

def sign (signer : LocalSkillSigner) (bundle : UnsignedSkillBundle) :
    Except SkillSigningError SignedSkillBundle :=
  if bundle.signerKeyId ≠ signer.keyId then
    .error ⟨s!"Bundle signerKeyId {bundle.signerKeyId} does not match signer key {signer.keyId}."⟩
  else
    match signer.edSign (canonicalSigningPayload bundle.toSignedFields) with
    | none => .error ⟨"Ed25519 signing failed."⟩
    | some signature =>
      .ok { manifest := { bundle.toSignedFields with signatureBase64 := toBase64 signature },
            payload := bundle.payload }

def verify (P : Platform) (signer : LocalSkillSigner) (bundle : SignedSkillBundle)
    (scope : SkillVerificationScope) : SkillSignatureVerification :=
  if bundle.manifest.signerKeyId ≠ signer.keyId then
    .invalid .skillSignatureInvalid
      s!"Bundle was signed by key {bundle.manifest.signerKeyId}, not {signer.keyId}."
  else if bundlePayloadContentSha256 P bundle.payload ≠ bundle.manifest.contentSha256 then
    .invalid .skillContentTampered "Bundle payload does not match the manifest content hash."
  else if signer.edVerify (canonicalSigningPayload bundle.manifest.toSignedFields)
      (fromBase64 bundle.manifest.signatureBase64) ≠ some true then
    .invalid .skillSignatureInvalid "Bundle signature is invalid."
  else (checkScope bundle.payload bundle.manifest scope).getD .valid

end LocalSkillSigner

section Authenticity

variable {P : Platform} {signer : LocalSkillSigner} {bundle : SignedSkillBundle}
  {scope : SkillVerificationScope}

theorem checkScope_ne_valid (payload : ProcedureSkillVersion) (manifest : SkillBundleManifest)
    (scope : SkillVerificationScope) :
    checkScope payload manifest scope ≠ some .valid := by
  unfold checkScope
  split_ifs
  · simp
  · simp
  · dsimp only
    split <;> simp

/-- The four checks that a valid bundle passed. -/
theorem verify_eq_valid_iff : signer.verify P bundle scope = .valid ↔
    bundle.manifest.signerKeyId = signer.keyId ∧
      bundlePayloadContentSha256 P bundle.payload = bundle.manifest.contentSha256 ∧
      signer.edVerify (canonicalSigningPayload bundle.manifest.toSignedFields)
        (fromBase64 bundle.manifest.signatureBase64) = some true ∧
      checkScope bundle.payload bundle.manifest scope = none := by
  unfold LocalSkillSigner.verify
  split_ifs with hk hc hs
  · simp [hk]
  · simp [hc]
  · simp [hs]
  · have hv := checkScope_ne_valid bundle.payload bundle.manifest scope
    cases hr : checkScope bundle.payload bundle.manifest scope with
    | none => simp_all
    | some result => simp_all

theorem sign_eq_ok_iff {unsigned : UnsignedSkillBundle} : signer.sign unsigned = .ok bundle ↔
    unsigned.signerKeyId = signer.keyId ∧
      ∃ signature, signer.edSign (canonicalSigningPayload unsigned.toSignedFields) =
        some signature ∧
        bundle = ⟨⟨unsigned.toSignedFields, toBase64 signature⟩, unsigned.payload⟩ := by
  unfold LocalSkillSigner.sign
  split_ifs with hk
  · simp [hk]
  · cases hs : signer.edSign (canonicalSigningPayload unsigned.toSignedFields) with
    | none => simp
    | some signature =>
      have hk' := not_not.mp hk
      simp only [Except.ok.injEq, hk', true_and, Option.some.injEq, exists_eq_left']
      exact eq_comm

/-- The bundles that the signer signed, with what they became. -/
def Issued (signer : LocalSkillSigner) (issued : List (UnsignedSkillBundle × SignedSkillBundle)) :
    Prop :=
  ∀ e ∈ issued, signer.sign e.1 = .ok e.2

/-- Only what the signer signed has a signature, and only the one it made. -/
def Unforgeable (signer : LocalSkillSigner)
    (issued : List (UnsignedSkillBundle × SignedSkillBundle)) : Prop :=
  ∀ message signature, signer.edVerify message signature = some true →
    ∃ e ∈ issued, canonicalSigningPayload e.1.toSignedFields = message ∧
      signer.edSign message = some signature

/-- The digest of the bundle is the one of its payload. -/
def UnsignedSkillBundle.Honest (P : Platform) (bundle : UnsignedSkillBundle) : Prop :=
  bundle.contentSha256 = bundlePayloadContentSha256 P bundle.payload

theorem eq_of_bundlePayloadContentSha256 (hsha : Function.Injective P.sha256Hex)
    {p q : ProcedureSkillVersion}
    (h : bundlePayloadContentSha256 P p = bundlePayloadContentSha256 P q) :
    p.toSkillContent = q.toSkillContent := eq_of_hashCanonical hsha h

end Authenticity

/-! ## A payload in another state -/

/-- A platform whose digests are the bytes themselves. -/
def textPlatform : Platform where
  sha256Hex := plainText
  sha256Base64url := plainText
  newUrl _ := none
  bindText _ := none

def sampleScope : TargetScope where
  targetId := "web-cart"
  minimumTargetVersion := none
  maximumTargetVersion := none
  allowedOrigins := []

def sampleContent : SkillContent where
  skillId := "skill"
  projectId := "project"
  targetScope := sampleScope
  parameters := []
  steps := ⟨⟨"step-001", .click ⟨none, none, "add to cart"⟩, [], [], .stop, "node-1"⟩, []⟩
  sourceRecordingIds := ⟨"recording", []⟩
  observationSchemaEpoch := .preV1
  locatorSchemaVersion := "semantic-locator/v1"
  compilerVersion := "skill-compiler/v1"

/-- A version of the sample content, with its digest. -/
def sampleVersion (version : ℕ) (state : SkillState) : ProcedureSkillVersion where
  toSkillContent := sampleContent
  version := version
  state := state
  contentSha256 := textPlatform.hashCanonical (toJs sampleContent)

def sampleBundle (version : ℕ) (state : SkillState) : UnsignedSkillBundle where
  bundleId := "bundle"
  skillId := "skill"
  skillVersion := version
  compilerVersion := "skill-compiler/v1"
  contentSha256 := (sampleVersion version state).contentSha256
  signerKeyId := "key"
  issuedAt := "2026-08-01T00:00:00.000Z"
  expiresAt := none
  payload := sampleVersion version state

/-- A key that made one signature, the byte 7 for one bundle. -/
def sampleSigner (bundle : UnsignedSkillBundle) : LocalSkillSigner where
  keyId := "key"
  edSign _ := some [7]
  edVerify message signature :=
    some (decide (message = canonicalSigningPayload bundle.toSignedFields ∧ signature = [7]))

def sampleSigned (version : ℕ) (state : SkillState) : SignedSkillBundle where
  manifest := { (sampleBundle version state).toSignedFields with signatureBase64 := "Bw==" }
  payload := sampleVersion version state

theorem sign_sampleBundle (version : ℕ) (state : SkillState) :
    (sampleSigner (sampleBundle version state)).sign (sampleBundle version state) =
      .ok (sampleSigned version state) := by
  have hb : toBase64 [7] = "Bw==" := by decide
  refine sign_eq_ok_iff.mpr ⟨rfl, [7], rfl, ?_⟩
  rw [hb]
  rfl

theorem unforgeable_sampleSigner (version : ℕ) (state : SkillState) :
    Unforgeable (sampleSigner (sampleBundle version state))
      [(sampleBundle version state, sampleSigned version state)] := by
  intro message signature h
  obtain ⟨rfl, rfl⟩ := of_decide_eq_true (Option.some.inj h)
  exact ⟨_, List.mem_singleton_self _, rfl, rfl⟩

/-- The candidate that was signed verifies as a verified version. -/
theorem verify_other_state (version version' : ℕ) (state state' : SkillState) :
    (sampleSigner (sampleBundle version state)).verify textPlatform
      { sampleSigned version state with payload := sampleVersion version' state' }
      ⟨"project", "web-cart", none, none⟩ = .valid := by
  have hb : fromBase64 "Bw==" = [7] := by decide
  refine verify_eq_valid_iff.mpr ⟨rfl, rfl, ?_, rfl⟩
  exact congrArg some (decide_eq_true ⟨rfl, hb⟩)

theorem issued_sampleBundle (version : ℕ) (state : SkillState) :
    Issued (sampleSigner (sampleBundle version state))
      [(sampleBundle version state, sampleSigned version state)] := by
  intro e he
  rw [List.mem_singleton.mp he]
  exact sign_sampleBundle version state

end Qualigence.Skill
