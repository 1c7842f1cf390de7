import Qualigence.Protocol.JsonData

/-! # Procedure skills and their bundles

A version of a procedure skill with all its compiled content, the bundle that carries it, the two
texts that are made of a bundle, and what each of them determines: the content text leaves out the
number, the state and the recorded digest of the version, and the signed text leaves out the
payload.
-/

namespace Qualigence.Skill

open Protocol JsValue

/-! ## The compiled content -/

inductive SkillState where
  | draft
  | candidate
  | verified
  | promoted
  | deprecated
  deriving DecidableEq

def SkillState.text : SkillState → String
  | .draft => "draft"
  | .candidate => "candidate"
  | .verified => "verified"
  | .promoted => "promoted"
  | .deprecated => "deprecated"

@[ext]
structure TargetScope where
  targetId : String
  minimumTargetVersion : Option String
  maximumTargetVersion : Option String
  allowedOrigins : List String
  deriving DecidableEq

@[ext]
structure SemanticTarget where
  role : Option String
  name : Option String
  purpose : String
  deriving DecidableEq

/-- A recorded action. -/
inductive IntentStep where
  | navigate (path : String)
  | click (target : SemanticTarget)
  | input (target : SemanticTarget) (valueRef : String)
  deriving DecidableEq

inductive SkillParameterSensitivity where
  | «public»
  | internal
  | sensitive
  | secret
  deriving DecidableEq

@[ext]
structure SkillParameter where
  name : String
  valueRef : String
  required : Bool
  sensitivity : SkillParameterSensitivity
  deriving DecidableEq

inductive SkillAssertion where
  | nodePresent (target : SemanticTarget)
  | nodeText (target : SemanticTarget) (expected : String)
  | claimSatisfied (claimId : String)
  | urlPath (path : String)
  deriving DecidableEq

inductive SkillStepRecovery where
  | stop
  | reobserve
  deriving DecidableEq

@[ext]
structure SkillStep where
  stepId : String
  intent : IntentStep
  preconditions : List SkillAssertion
  checkpoint : List SkillAssertion
  recovery : SkillStepRecovery
  sourceNodeId : String
  deriving DecidableEq

inductive ObservationSchemaEpoch where
  | preV1
  | v1
  deriving DecidableEq

/-- What of a version is compiled: everything but its number, its state and the digest. -/
@[ext]
structure SkillContent where
  skillId : String
  projectId : String
  targetScope : TargetScope
  parameters : List SkillParameter
  steps : NonEmptyList SkillStep
  sourceRecordingIds : NonEmptyList String
  observationSchemaEpoch : ObservationSchemaEpoch
  locatorSchemaVersion : String
  compilerVersion : String
  deriving DecidableEq

structure ProcedureSkillVersion extends SkillContent where
  version : ℕ
  state : SkillState
  contentSha256 : String
  deriving DecidableEq

/-! ## The data as JSON -/

def SkillParameterSensitivity.text : SkillParameterSensitivity → String
  | .public => "public"
  | .internal => "internal"
  | .sensitive => "sensitive"
  | .secret => "secret"

def SkillStepRecovery.text : SkillStepRecovery → String
  | .stop => "stop"
  | .reobserve => "reobserve"

def ObservationSchemaEpoch.text : ObservationSchemaEpoch → String
  | .preV1 => "pre-v1"
  | .v1 => "v1"

instance : JsonData SkillParameterSensitivity :=
  textData SkillParameterSensitivity.text fun a b h => by cases a <;> cases b <;> simp_all [
    SkillParameterSensitivity.text]

instance : JsonData SkillStepRecovery :=
  textData SkillStepRecovery.text fun a b h => by cases a <;> cases b <;> simp_all [
    SkillStepRecovery.text]

instance : JsonData ObservationSchemaEpoch :=
  textData ObservationSchemaEpoch.text fun a b h => by cases a <;> cases b <;> simp_all [
    ObservationSchemaEpoch.text]

instance : JsonData TargetScope :=
  objectData (fun s => ("targetId", toJs s.targetId) ::
      (optionalData "minimumTargetVersion" s.minimumTargetVersion ++
        (optionalData "maximumTargetVersion" s.maximumTargetVersion ++
          [("allowedOrigins", toJs s.allowedOrigins)])))
    (fun s => by cases s.minimumTargetVersion <;> cases s.maximumTargetVersion <;> simp)
    (fun s => by simp [PlainFields, plainFields_append, plainFields_optionalData, JsonData.plain])
    (fun h => by
      have h₁ := h "targetId"
      have h₂ := h "minimumTargetVersion"
      have h₃ := h "maximumTargetVersion"
      have h₄ := h "allowedOrigins"
      simp [field_nil] at h₁ h₂ h₃ h₄
      exact TargetScope.ext h₁ h₂ h₃ h₄)

instance : JsonData SemanticTarget :=
  objectData (fun t => optionalData "role" t.role ++ (optionalData "name" t.name ++
      [("purpose", toJs t.purpose)]))
    (fun t => by cases t.role <;> cases t.name <;> simp)
    (fun t => by simp [PlainFields, plainFields_append, plainFields_optionalData, JsonData.plain])
    (fun h => by
      have h₁ := h "role"
      have h₂ := h "name"
      have h₃ := h "purpose"
      simp [field_nil] at h₁ h₂ h₃
      exact SemanticTarget.ext h₁ h₂ h₃)

instance : JsonData SkillParameter :=
  objectData (fun p => [("name", toJs p.name), ("valueRef", toJs p.valueRef),
      ("required", toJs p.required), ("sensitivity", toJs p.sensitivity)])
    (fun p => by simp) (fun p => by simp [PlainFields, JsonData.plain])
    (fun h => by
      have h₁ := h "name"
      have h₂ := h "valueRef"
      have h₃ := h "required"
      have h₄ := h "sensitivity"
      simp at h₁ h₂ h₃ h₄
      exact SkillParameter.ext h₁ h₂ h₃ h₄)

def IntentStep.fields : IntentStep → List (String × JsValue)
  | navigate path => [("kind", .str "navigate"), ("path", toJs path)]
  | click target => [("kind", .str "click"), ("target", toJs target)]
  | input target valueRef =>
    [("kind", .str "input"), ("target", toJs target), ("valueRef", toJs valueRef)]

instance : JsonData IntentStep :=
  objectData IntentStep.fields
    (fun s => by cases s <;> simp [IntentStep.fields])
    (fun s => by cases s <;> simp [IntentStep.fields, PlainFields, Plain, JsonData.plain])
    (fun {s t} h => by
      have h₁ := h "kind"
      have h₂ := h "path"
      have h₃ := h "target"
      have h₄ := h "valueRef"
      cases s <;> cases t <;> simp_all [IntentStep.fields, canonicalize])

def SkillAssertion.fields : SkillAssertion → List (String × JsValue)
  | nodePresent target => [("kind", .str "node_present"), ("target", toJs target)]
  | nodeText target expected =>
    [("kind", .str "node_text"), ("target", toJs target), ("expected", toJs expected)]
  | claimSatisfied claimId => [("kind", .str "claim_satisfied"), ("claimId", toJs claimId)]
  | urlPath path => [("kind", .str "url_path"), ("path", toJs path)]

instance : JsonData SkillAssertion :=
  objectData SkillAssertion.fields
    (fun a => by cases a <;> simp [SkillAssertion.fields])
    (fun a => by cases a <;> simp [SkillAssertion.fields, PlainFields, Plain, JsonData.plain])
    (fun {a b} h => by
      have h₁ := h "kind"
      have h₂ := h "target"
      have h₃ := h "expected"
      have h₄ := h "claimId"
      have h₅ := h "path"
      cases a <;> cases b <;> simp_all [SkillAssertion.fields, canonicalize])

instance : JsonData SkillStep :=
  objectData (fun s => [("stepId", toJs s.stepId), ("intent", toJs s.intent),
      ("preconditions", toJs s.preconditions), ("checkpoint", toJs s.checkpoint),
      ("recovery", toJs s.recovery), ("sourceNodeId", toJs s.sourceNodeId)])
    (fun s => by simp) (fun s => by simp [PlainFields, JsonData.plain])
    (fun h => by
      have h₁ := h "stepId"
      have h₂ := h "intent"
      have h₃ := h "preconditions"
      have h₄ := h "checkpoint"
      have h₅ := h "recovery"
      have h₆ := h "sourceNodeId"
      simp at h₁ h₂ h₃ h₄ h₅ h₆
      exact SkillStep.ext h₁ h₂ h₃ h₄ h₅ h₆)

instance : JsonData SkillContent :=
  objectData (fun c => [("skillId", toJs c.skillId), ("projectId", toJs c.projectId),
      ("targetScope", toJs c.targetScope), ("parameters", toJs c.parameters),
      ("steps", toJs c.steps), ("sourceRecordingIds", toJs c.sourceRecordingIds),
      ("observationSchemaEpoch", toJs c.observationSchemaEpoch),
      ("locatorSchemaVersion", toJs c.locatorSchemaVersion),
      ("compilerVersion", toJs c.compilerVersion)])
    (fun c => by simp) (fun c => by simp [PlainFields, JsonData.plain])
    (fun h => by
      have h₁ := h "skillId"
      have h₂ := h "projectId"
      have h₃ := h "targetScope"
      have h₄ := h "parameters"
      have h₅ := h "steps"
      have h₆ := h "sourceRecordingIds"
      have h₇ := h "observationSchemaEpoch"
      have h₈ := h "locatorSchemaVersion"
      have h₉ := h "compilerVersion"
      simp at h₁ h₂ h₃ h₄ h₅ h₆ h₇ h₈ h₉
      exact SkillContent.ext h₁ h₂ h₃ h₄ h₅ h₆ h₇ h₈ h₉)

/-! ## Bundles -/

/-- What of a manifest is signed. Its schema version and its algorithm have one value each. -/
@[ext]
structure SignedFields where
  bundleId : String
  skillId : String
  skillVersion : ℕ
  compilerVersion : String
  contentSha256 : String
  signerKeyId : String
  issuedAt : String
  expiresAt : Option String
  deriving DecidableEq

structure SkillBundleManifest extends SignedFields where
  signatureBase64 : String
  deriving DecidableEq

/-- A bundle before a signature is attached. -/
structure UnsignedSkillBundle extends SignedFields where
  payload : ProcedureSkillVersion
  deriving DecidableEq

structure SignedSkillBundle where
  manifest : SkillBundleManifest
  payload : ProcedureSkillVersion
  deriving DecidableEq

instance : JsonData SignedFields :=
  objectData (fun m => ("bundleId", toJs m.bundleId) :: ("skillId", toJs m.skillId) ::
      ("skillVersion", toJs m.skillVersion) :: ("schemaVersion", .str "skill-bundle/v1") ::
      ("compilerVersion", toJs m.compilerVersion) :: ("contentSha256", toJs m.contentSha256) ::
      ("signerKeyId", toJs m.signerKeyId) :: ("signatureAlgorithm", .str "Ed25519") ::
      ("issuedAt", toJs m.issuedAt) :: optionalData "expiresAt" m.expiresAt)
    (fun m => by cases m.expiresAt <;> simp)
    (fun m => by simp [plainFields_cons, plainFields_optionalData, JsonData.plain, Plain])
    (fun h => by
      have h₁ := h "bundleId"
      have h₂ := h "skillId"
      have h₃ := h "skillVersion"
      have h₄ := h "compilerVersion"
      have h₅ := h "contentSha256"
      have h₆ := h "signerKeyId"
      have h₇ := h "issuedAt"
      have h₈ := h "expiresAt"
      simp at h₁ h₂ h₃ h₄ h₅ h₆ h₇ h₈
      exact SignedFields.ext h₁ h₂ h₃ h₄ h₅ h₆ h₇ h₈)

/-- The canonical byte string a signature covers. -/
def canonicalSigningPayload (bundle : SignedFields) : List UInt8 :=
  utf8Encode (textOf (canonicalize (toJs bundle)))

/-- The content hash of the payload of a bundle, for integrity checks. -/
def bundlePayloadContentSha256 (P : Platform) (payload : ProcedureSkillVersion) : String :=
  P.hashCanonical (toJs payload.toSkillContent)

theorem canonicalSigningPayload_injective : Function.Injective canonicalSigningPayload := by
  intro b c h
  exact JsonData.eq_of_canonicalize
    (canonicalize_eq_of_bytes (JsonData.plain b) (JsonData.plain c) h)

end Qualigence.Skill
