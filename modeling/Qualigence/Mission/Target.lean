import Qualigence.Mission.Plan
import Qualigence.Protocol.ReadBack

/-! # Target revisions

The configuration of a target that missions are compiled for: a web application with its
allowed origins, or a desktop application. A revision is created from an untyped
configuration, without credentials or plain values, and is immutable.
-/

namespace Qualigence.Mission

open Foundation Protocol

structure WebTargetConfiguration where
  startUrl : String
  allowedOrigins : List String
  authenticationProfileId : Option String
  deriving DecidableEq

inductive TargetConfiguration where
  | web (configuration : WebTargetConfiguration)
  | desktop (app : AppTarget)
  deriving DecidableEq

structure TargetRevision where
  targetId : String
  projectId : String
  displayName : String
  runnerId : String
  version : ℕ
  snapshotHash : String
  configuration : TargetConfiguration
  deriving DecidableEq

structure CreateTargetRevisionInput where
  targetId : JsValue
  projectId : JsValue
  displayName : JsValue
  runnerId : JsValue
  expectedVersion : Int
  configuration : JsValue

inductive ProjectTargetError where
  | invalidTargetConfiguration (message : String)
  | targetSecretRejected (message : String)
  deriving DecidableEq

abbrev Targeting (α : Type) := Except ProjectTargetError α

def invalidTarget {α : Type} (message : String) : Targeting α :=
  .error (.invalidTargetConfiguration message)

def secretRejected {α : Type} (message : String) : Targeting α :=
  .error (.targetSecretRejected message)

/-- `text.trim()`. -/
def trim (s : String) : String := String.ofList (trimChars s.toList)

/-- A text with more than spaces, trimmed. -/
def requiredString (value : JsValue) (field : String) : Targeting String :=
  match value with
  | .str s => if isBlank s then invalidTarget (field ++ " is required") else .ok (trim s)
  | _ => invalidTarget (field ++ " is required")

/-! ## Desktop arguments -/

def approvedLaunchFlags : List String := ["--kiosk"]

def approvedLaunchValues : List (String × List String) :=
  [("--fixture", ["default"]), ("--profile", ["approved"])]

def approvedResetFlags : List String := ["--clean", "--full", "--reset"]

/-- `ref:`, a letter or digit, and at least one more character of a reference. -/
def approvedReference : Pattern :=
  .all [.start, .literal "ref:", .char Char.isAlphanum, .some1 (.char isReferenceChar), .stop]

def launchArgsRejected : String :=
  "Desktop launch arguments must use the approved flags or opaque ref: references"

/-- A flag and a reference stand alone; an approved name takes the next argument with it. -/
def validateLaunchArgs : List String → Targeting Unit
  | [] => .ok ()
  | [argument] =>
    if approvedLaunchFlags.contains argument || approvedReference.test argument then .ok ()
    else secretRejected launchArgsRejected
  | argument :: value :: args =>
    if approvedLaunchFlags.contains argument || approvedReference.test argument then
      validateLaunchArgs (value :: args)
    else match approvedLaunchValues.find? fun entry => entry.1 = argument with
      | some (_, values) =>
        if values.contains value || approvedReference.test value then validateLaunchArgs args
        else secretRejected launchArgsRejected
      | none => secretRejected launchArgsRejected

def validateResetArgs (args : List String) : Targeting Unit :=
  if args.all fun argument =>
      approvedResetFlags.contains argument || approvedReference.test argument then .ok ()
  else secretRejected
    "Desktop reset arguments must use the approved flags or opaque ref: references"

/-- Whether an object has a property of one of the two names. -/
def hasEnvironment : JsValue → Bool
  | .obj fields => JsValue.field "env" fields ≠ .undefined ∨
      JsValue.field "environment" fields ≠ .undefined
  | _ => false

def rejectEnvironment (candidate : JsValue) : Targeting Unit :=
  match candidate with
  | .obj fields =>
    if hasEnvironment candidate ∨ hasEnvironment (JsValue.field "launch" fields) then
      secretRejected
        "Desktop Target environment values are not part of the approved AppTarget contract"
    else .ok ()
  | _ => .ok ()

/-! ## Configurations -/

section Create

variable (P : PlanningPlatform)

/-- An origin over HTTPS without credentials, in its canonical text. -/
def requireOrigin (entry : JsValue) : Targeting String := do
  let origin ← requiredString entry "configuration.allowedOrigins"
  match P.newUrl origin with
  | none => invalidTarget "allowedOrigins must contain absolute URLs"
  | some url =>
    if url.protocol ≠ "https:" ∨ url.origin ≠ origin ∨ url.username ≠ "" ∨ url.password ≠ "" then
      secretRejected "allowedOrigins must be credential-free HTTPS origins"
    else .ok origin

/-- A text that may be absent, and is not blank when it is there. -/
def optionalRequired (value : JsValue) (field : String) : Targeting (Option String) :=
  match value with
  | .undefined => .ok none
  | v => some <$> requiredString v field

def validateWebTarget (value : List (String × JsValue)) : Targeting WebTargetConfiguration := do
  let startUrl ← requiredString (JsValue.field "startUrl" value) "configuration.startUrl"
  match P.newUrl startUrl with
  | none => invalidTarget "startUrl must be an absolute URL"
  | some parsed =>
    if parsed.protocol ≠ "https:" ∨ parsed.username ≠ "" ∨ parsed.password ≠ "" then
      secretRejected "startUrl must be HTTPS and contain no credentials"
    else match JsValue.field "allowedOrigins" value with
    | .arr (first :: rest) => do
      let allowedOrigins ← (first :: rest).mapM (requireOrigin P)
      if ¬ allowedOrigins.contains parsed.origin then
        invalidTarget "allowedOrigins must include the startUrl origin"
      else if JsValue.field "browser" value ≠ .str "chromium" then
        invalidTarget "browser must be chromium"
      else
        let authenticationProfileId ← optionalRequired
          (JsValue.field "authenticationProfileId" value) "configuration.authenticationProfileId"
        .ok { startUrl := P.href startUrl, allowedOrigins, authenticationProfileId }
    | _ => invalidTarget "allowedOrigins is required"

def validateDesktopTarget (targetId : String) (value : List (String × JsValue)) :
    Targeting AppTarget := do
  rejectEnvironment (JsValue.field "app" value)
  match AppTarget.validateAppTarget (JsValue.field "app" value) with
  | .error e => invalidTarget e.message
  | .ok app =>
    if app.targetId ≠ targetId then
      invalidTarget "Desktop app targetId must match the Target revision"
    else
      validateLaunchArgs app.launch.args
      validateResetArgs app.reset.args
      .ok app

def validateConfiguration (targetId : String) (configuration : JsValue) :
    Targeting TargetConfiguration :=
  match configuration with
  | .obj value =>
    match JsValue.field "kind" value with
    | .str "web" => .web <$> validateWebTarget P value
    | .str "desktop" => .desktop <$> validateDesktopTarget targetId value
    | _ => invalidTarget "kind must be web or desktop"
  | _ => invalidTarget "configuration must be an object"

def TargetConfiguration.toValue : TargetConfiguration → JsValue
  | .web c => .obj ([("kind", .str "web"), ("startUrl", .str c.startUrl),
      ("allowedOrigins", AppTarget.strings c.allowedOrigins), ("browser", .str "chromium")] ++
      JsValue.optional "authenticationProfileId" (c.authenticationProfileId.map .str))
  | .desktop app => .obj [("kind", .str "desktop"), ("app", app.toValue)]

def createTargetRevision (input : CreateTargetRevisionInput) : Targeting TargetRevision :=
  if input.expectedVersion < 0 then
    invalidTarget "expectedVersion must be a non-negative integer"
  else do
    let targetId ← requiredString input.targetId "targetId"
    let projectId ← requiredString input.projectId "projectId"
    let displayName ← requiredString input.displayName "displayName"
    let runnerId ← requiredString input.runnerId "runnerId"
    let configuration ← validateConfiguration P targetId input.configuration
    let version := input.expectedVersion.toNat + 1
    let snapshot : JsValue := .obj [("targetId", .str targetId), ("projectId", .str projectId),
      ("displayName", .str displayName), ("runnerId", .str runnerId), ("version", .int version),
      ("configuration", configuration.toValue)]
    .ok { targetId, projectId, displayName, runnerId, version, configuration
          snapshotHash := P.hashCanonical snapshot }

end Create

/-! ## What a created revision satisfies -/

/-- What the environment has to do: a digest is 64 hexadecimal digits, and the text of a parsed
URL is not blank and is parsed to the same URL again. -/
structure PlanningPlatform.Lawful (P : PlanningPlatform) : Prop where
  digest_length : ∀ bytes, (P.sha256Hex bytes).toList.length = 64
  digest_hex : ∀ bytes, ∀ c ∈ (P.sha256Hex bytes).toList, c.isAlphanum = true
  href_parses : ∀ text url, P.newUrl text = some url → P.newUrl (P.href text) = some url
  href_nonblank : ∀ text url, P.newUrl text = some url → isBlank (P.href text) = false

/-- The configurations that the checks let through. -/
def TargetConfiguration.Valid (P : PlanningPlatform) : TargetConfiguration → Prop
  | .web c => isBlank c.startUrl = false ∧
      (∃ url, P.newUrl c.startUrl = some url ∧ url.protocol = "https:" ∧ url.username = "" ∧
        url.password = "" ∧ url.origin ∈ c.allowedOrigins) ∧
      c.allowedOrigins ≠ [] ∧ ∀ origin ∈ c.allowedOrigins, isBlank origin = false
  | .desktop app => AppTarget.validateAppTarget app.toValue = .ok app

section Valid

variable {P : PlanningPlatform}

/-- An item that is not dropped stays. -/
theorem mem_dropWhile_of_not {p : Char → Bool} {c : Char} {cs : List Char} (hc : c ∈ cs)
    (hp : p c = false) : c ∈ cs.dropWhile p := by
  induction cs with
  | nil => cases hc
  | cons d cs ih =>
    rw [List.dropWhile_cons]
    split
    · next hd =>
      rcases List.mem_cons.mp hc with rfl | hc
      · rw [hp] at hd
        cases hd
      · exact ih hc
    · exact hc

theorem isBlank_eq_false_iff {s : String} :
    isBlank s = false ↔ ∃ c ∈ s.toList, isJsSpace c = false := by
  simp [isBlank]

theorem isBlank_trim {s : String} (h : isBlank s = false) : isBlank (trim s) = false := by
  obtain ⟨c, hc, hs⟩ := isBlank_eq_false_iff.mp h
  refine isBlank_eq_false_iff.mpr ⟨c, ?_, hs⟩
  have hleft := List.mem_reverse.mpr (mem_dropWhile_of_not hc hs)
  have hboth := List.mem_reverse.mpr (mem_dropWhile_of_not hleft hs)
  simpa [trim, trimChars] using hboth

theorem isBlank_of_requiredString {v : JsValue} {field s : String}
    (h : requiredString v field = .ok s) : isBlank s = false := by
  unfold requiredString invalidTarget at h
  split at h
  · split at h
    · cases h
    · next hb =>
      cases h
      exact isBlank_trim (by simpa using hb)
  · cases h

theorem isBlank_of_requireOrigin {v : JsValue} {origin : String}
    (h : requireOrigin P v = .ok origin) : isBlank origin = false := by
  unfold requireOrigin at h
  obtain ⟨text, ht, h⟩ := bind_eq_ok.mp h
  split at h
  · cases h
  · split at h
    · cases h
    · cases h
      exact isBlank_of_requiredString ht

theorem valid_of_validateWebTarget (hP : P.Lawful) {value : List (String × JsValue)}
    {c : WebTargetConfiguration} (h : validateWebTarget P value = .ok c) :
    (TargetConfiguration.web c).Valid P := by
  unfold validateWebTarget at h
  obtain ⟨startUrl, _, h⟩ := bind_eq_ok.mp h
  split at h
  · cases h
  next parsed hparsed =>
  split at h
  · cases h
  next hsafe =>
  push Not at hsafe
  split at h
  · obtain ⟨origins, ho, h⟩ := bind_eq_ok.mp h
    split at h
    · cases h
    next hmem =>
    split at h
    · cases h
    obtain ⟨profile, _, h⟩ := bind_eq_ok.mp h
    cases h
    have horigin : parsed.origin ∈ origins := by simpa using hmem
    refine ⟨hP.href_nonblank startUrl parsed hparsed,
      ⟨parsed, hP.href_parses startUrl parsed hparsed, hsafe.1, hsafe.2.1, hsafe.2.2, horigin⟩,
      List.ne_nil_of_mem horigin, ?_⟩
    intro origin hm
    obtain ⟨v, _, hv⟩ := exists_of_mapM ho origin hm
    exact isBlank_of_requireOrigin hv
  · cases h

theorem valid_of_validateDesktopTarget {targetId : String} {value : List (String × JsValue)}
    {app : AppTarget} (h : validateDesktopTarget targetId value = .ok app) :
    (TargetConfiguration.desktop app).Valid P := by
  unfold validateDesktopTarget at h
  obtain ⟨_, _, h⟩ := bind_eq_ok.mp h
  split at h
  · cases h
  next app' happ =>
  split at h
  · cases h
  obtain ⟨_, _, h⟩ := bind_eq_ok.mp h
  obtain ⟨_, _, h⟩ := bind_eq_ok.mp h
  cases h
  exact AppTarget.validateAppTarget_readsBack happ

/-- A created revision has a valid configuration and a project. -/
theorem valid_of_createTargetRevision (hP : P.Lawful) {input : CreateTargetRevisionInput}
    {target : TargetRevision} (h : createTargetRevision P input = .ok target) :
    target.configuration.Valid P := by
  unfold createTargetRevision at h
  split at h
  · cases h
  obtain ⟨targetId, _, h⟩ := bind_eq_ok.mp h
  obtain ⟨projectId, _, h⟩ := bind_eq_ok.mp h
  obtain ⟨displayName, _, h⟩ := bind_eq_ok.mp h
  obtain ⟨runnerId, _, h⟩ := bind_eq_ok.mp h
  obtain ⟨configuration, hc, h⟩ := bind_eq_ok.mp h
  cases h
  unfold validateConfiguration at hc
  split at hc
  · split at hc
    · obtain ⟨c, hw, hc⟩ := bind_eq_ok.mp hc
      cases hc
      exact valid_of_validateWebTarget hP hw
    · obtain ⟨app, hd, hc⟩ := bind_eq_ok.mp hc
      cases hc
      exact valid_of_validateDesktopTarget hd
    · cases hc
  · cases hc

end Valid

end Qualigence.Mission
