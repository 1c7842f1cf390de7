import Qualigence.Skill.Store

/-! # The lifecycle service

A command is decided on the version, the evaluation and the bundle that the service read, by the
transitions of the aggregate and by the promotion policy, and is then committed by the store under
its expected version and its idempotency key.
-/

namespace Qualigence.Skill

open Foundation Protocol

/-! ## The aggregate -/

structure SkillTransition where
  skillId : String
  fromState : SkillState
  toState : SkillState
  version : ℕ
  idempotencyKey : String
  deriving DecidableEq

/-- The aggregate, with the transitions it made since it was loaded. -/
structure TestSkill where
  snapshot : ProcedureSkillVersion
  transitions : List (String × SkillTransition)

namespace TestSkill

def fromVersion (version : ProcedureSkillVersion) : TestSkill := ⟨version, []⟩

def replayIfIdempotent (skill : TestSkill) (idempotencyKey : String) : Option SkillTransition :=
  (skill.transitions.find? fun t => t.1 = idempotencyKey).map (·.2)

def assertExpectedVersion (skill : TestSkill) (expectedVersion : ℕ) : Except LifecycleError Unit :=
  if expectedVersion ≠ skill.snapshot.version then
    .error (.skill .skillVersionConflict (s!"Expected version {expectedVersion} but skill " ++
      s!"{skill.snapshot.skillId} is at version {skill.snapshot.version}.")
      (some skill.snapshot.version))
  else .ok ()

/-- Move to the next version in another state. -/
def commit (skill : TestSkill) (idempotencyKey : String) (toState : SkillState) : TestSkill where
  snapshot := { skill.snapshot with version := skill.snapshot.version + 1, state := toState }
  transitions := (idempotencyKey, ⟨skill.snapshot.skillId, skill.snapshot.state, toState,
    skill.snapshot.version + 1, idempotencyKey⟩) :: skill.transitions

/-- The error of a promotion of a version that is not verified. -/
def illegalTransitionError (skill : TestSkill) : LifecycleError :=
  if skill.snapshot.state = .promoted ∨ skill.snapshot.state = .deprecated then
    .skill .skillStateReversal (s!"Skill {skill.snapshot.skillId} is " ++
      s!"{skill.snapshot.state.text}; a transition to promoted would reverse the lifecycle.") none
  else
    .skill .skillNotVerified s!"Skill {skill.snapshot.skillId} must be verified before promotion."
      none

def promote (skill : TestSkill) (expectedVersion : ℕ) (idempotencyKey : String) :
    Except LifecycleError TestSkill :=
  if (skill.replayIfIdempotent idempotencyKey).isSome then .ok skill
  else if skill.snapshot.state ≠ .verified then .error skill.illegalTransitionError
  else do
    skill.assertExpectedVersion expectedVersion
    .ok (skill.commit idempotencyKey .promoted)

def «deprecate» (skill : TestSkill) (expectedVersion : ℕ) (idempotencyKey : String) :
    Except LifecycleError TestSkill :=
  if skill.snapshot.state = .deprecated then
    if (skill.replayIfIdempotent idempotencyKey).isSome then .ok skill
    else .error (.skill .skillAlreadyDeprecated
      s!"Skill {skill.snapshot.skillId} is already deprecated." none)
  else do
    skill.assertExpectedVersion expectedVersion
    .ok (skill.commit idempotencyKey .deprecated)

end TestSkill

/-! ## The promotion policy -/

/-- Why a promotion is rejected, or `none` for an approval. -/
def SkillPromotionPolicy.evaluate (version : ProcedureSkillVersion) (evaluation : SkillEvaluation)
    (signatureVerification : SkillSignatureVerification) (requiredOracles : List String) :
    Option (SkillErrorCode × String) :=
  let passedOracles :=
    (evaluation.oracles.toList.filter fun o => o.status = .passed).map (·.oracle)
  if version.state ≠ .verified then
    some (.skillNotVerified, s!"Skill {version.skillId} must be verified before promotion " ++
      s!"(was {version.state.text}).")
  else if signatureVerification ≠ .valid then
    some (.skillSignatureInvalid, "A Skill cannot be promoted without a valid Bundle signature.")
  else if evaluation.outcome ≠ .passed then
    some (.skillVerificationFailed,
      "A Skill cannot be promoted unless its replay evaluation passed.")
  else if !evaluation.signatureValid then
    some (.skillSignatureInvalid, "The recorded evaluation did not confirm a valid signature.")
  else
    (requiredOracles.find? (· ∉ passedOracles)).map fun required =>
      (.skillVerificationFailed, s!"Required replay oracle \"{required}\" did not pass.")

def bundleMatchesVersion (bundle : Option SignedSkillBundle) (version : ProcedureSkillVersion) :
    Bool :=
  bundle.any fun bundle => bundle.manifest.skillId = version.skillId ∧
    bundle.manifest.skillVersion = version.version ∧
    bundle.manifest.contentSha256 = version.contentSha256 ∧
    bundle.payload.skillId = version.skillId ∧ bundle.payload.version = version.version ∧
    bundle.payload.contentSha256 = version.contentSha256

/-! ## The service -/

inductive SkillLifecycleReplayResult where
  | notFound
  | replayed (result : ProcedureSkillVersion)
  | conflict (resultVersion : ℕ)

/-- What a store commits for a command. -/
structure CommitInput where
  command : SkillLifecycleCommand
  commandHash : String
  result : ProcedureSkillVersion
  audit : SkillLifecycleAuditEvent
  revocation : Option SkillRevocation

/-- The methods of a store that the service calls for a command. -/
structure SkillRepository.{u} (m : Type → Type u) where
  replayLifecycleCommand : String → String → m SkillLifecycleReplayResult
  latestVersion : String → m (Option ProcedureSkillVersion)
  evaluations : String → ℕ → m (List SkillEvaluation)
  bundle : String → ℕ → m (Option SignedSkillBundle)
  commitLifecycleCommand : CommitInput → m ProcedureSkillVersion

/-- The texts in the order of `sort`. -/
def sortedTexts (texts : List String) : JsValue :=
  .arr ((texts.insertionSort fun s t => utf16Le s t).map .str)

def skillLifecycleCommandHash (P : Platform) (command : SkillLifecycleCommand) : String :=
  P.hashCanonical (.obj ([
    ("operation", .str (match command.operation with
      | .promote _ => "promote"
      | .«deprecate» _ => "deprecate")),
    ("skillId", .str command.skillId), ("expectedVersion", .int command.expectedVersion),
    (match command.operation with
      | .promote requiredOracles => ("requiredOracles", sortedTexts requiredOracles)
      | .«deprecate» reason => ("reason", .str reason)),
    ("actor", .obj [("actorId", .str command.actor.actorId),
      ("tenantId", .str command.actor.tenantId), ("roles", sortedTexts command.actor.roles)])]))

def aborted : LifecycleError :=
  .skill .skillCommandAborted "Skill lifecycle command was aborted before dispatch." none

def idempotencyConflict (resultVersion : ℕ) : LifecycleError :=
  .skill .skillIdempotencyConflict
    "idempotency key is bound to another Skill lifecycle command" (some resultVersion)

/-- The service, with the signer that it verifies bundles with. -/
structure SkillLifecycleService where
  platform : Platform
  signer : Option LocalSkillSigner

namespace SkillLifecycleService

variable (service : SkillLifecycleService)

def signatureVerification (version : ProcedureSkillVersion) (bundle : SignedSkillBundle)
    (now : String) : SkillSignatureVerification :=
  match service.signer with
  | none => .invalid .skillSignatureInvalid "No Skill signature verifier is configured."
  | some signer => signer.verify service.platform bundle
      ⟨version.projectId, version.targetScope.targetId, none, some now⟩

/-- The decision on a promotion, from the version, its evaluations and its bundle. -/
def decidePromotion (command : SkillLifecycleCommand) (requiredOracles : List String)
    (current : ProcedureSkillVersion) (evaluations : List SkillEvaluation)
    (bundle : Option SignedSkillBundle) : Except LifecycleError ProcedureSkillVersion :=
  match evaluations.getLast? with
  | none => .error (.skill .skillVerificationFailed
      "A Skill cannot be promoted without a completed evaluation." none)
  | some evaluation =>
    match bundle.filter fun b => bundleMatchesVersion (some b) current with
    | none => .error (.skill .skillBundleMissing
        "A Skill cannot be promoted without its signed Bundle." none)
    | some bundle =>
      match SkillPromotionPolicy.evaluate current evaluation
          (service.signatureVerification current bundle command.occurredAt) requiredOracles with
      | some (code, message) => .error (.skill code message none)
      | none => (·.snapshot) <$>
          (TestSkill.fromVersion current).promote command.expectedVersion command.idempotencyKey

def commitInput (command : SkillLifecycleCommand) (current result : ProcedureSkillVersion)
    (reason : String) : CommitInput where
  command := command
  commandHash := skillLifecycleCommandHash service.platform command
  result := result
  audit := ⟨command.idempotencyKey ++ ":audit", result.skillId, result.version, command.operation,
    command.actor, reason, current.version, current.state, result.state, command.occurredAt⟩
  revocation :=
    match command.operation with
    | .promote _ => none
    | .«deprecate» _ => some ⟨command.idempotencyKey ++ ":revocation", result.skillId,
        result.version, reason, command.occurredAt⟩

section Apply

variable {m : Type → Type*} [Monad m] [MonadExcept LifecycleError m]

/-- Raise the error of a decision. -/
def raise {α : Type} : Except LifecycleError α → m α
  | .ok a => pure a
  | .error e => throw e

def throwIfAborted (abortedNow : Bool) : m Unit := if abortedNow then throw aborted else pure ()

/-- The decision of a command on the current version, with the reason that is recorded for it. -/
def decide (repository : SkillRepository m) (command : SkillLifecycleCommand)
    (current : ProcedureSkillVersion) : m (ProcedureSkillVersion × String) :=
  match command.operation with
  | .promote requiredOracles => do
    let evaluations ← repository.evaluations current.skillId current.version
    let bundle ← repository.bundle current.skillId current.version
    let result ← raise
      (service.decidePromotion command requiredOracles current evaluations bundle)
    pure (result, "promotion policy approved")
  | .«deprecate» reason => do
    let skill ← raise ((TestSkill.fromVersion current).«deprecate» command.expectedVersion
      command.idempotencyKey)
    pure (skill.snapshot, reason)

def requireCurrent (command : SkillLifecycleCommand) :
    Option ProcedureSkillVersion → Except LifecycleError ProcedureSkillVersion
  | none => .error (.skill .skillNotFound s!"Skill {command.skillId} was not found." none)
  | some current =>
    if current.version ≠ command.expectedVersion then
      .error (.skill .skillVersionConflict (s!"Skill {command.skillId} expected version " ++
        s!"{command.expectedVersion} but stored version is {current.version}.")
        (some current.version))
    else .ok current

def apply (repository : SkillRepository m) (command : SkillLifecycleCommand) :
    m ProcedureSkillVersion := do
  throwIfAborted command.abortedAtFirst
  match ← repository.replayLifecycleCommand command.idempotencyKey
      (skillLifecycleCommandHash service.platform command) with
  | .replayed result => pure result
  | .conflict resultVersion => throw (idempotencyConflict resultVersion)
  | .notFound => do
    let current ← raise (requireCurrent command (← repository.latestVersion command.skillId))
    let (result, reason) ← service.decide repository command current
    throwIfAborted command.abortedBeforeCommit
    repository.commitLifecycleCommand (service.commitInput command current result reason)

end Apply

end SkillLifecycleService

/-! ## The store on a shared connection -/

def readLifecycleReplay (idempotencyKey commandHash : String) :
    Program SkillSql LifecycleError SkillLifecycleReplayResult := do
  match ← Program.perform (S := SkillSql) (.readCommand idempotencyKey) with
  | none => pure .notFound
  | some row =>
    if row.commandHash ≠ commandHash then pure (.conflict row.resultVersion)
    else pure (.replayed row.result)

/-- The writes of a command. -/
def persistLifecycleResult (input : CommitInput) : Program SkillSql LifecycleError Unit := do
  let updated : ℕ ← Program.perform (S := SkillSql) (.updateHead input.command.skillId
    input.command.expectedVersion input.result.version input.result.state
    input.command.occurredAt)
  if updated ≠ 1 then
    let actual ← Program.perform (S := SkillSql) (.readHead input.command.skillId)
    Program.throw (.skill .skillVersionConflict "Skill version changed during lifecycle command."
      (actual.map (·.currentVersion)))
  else
    Program.perform (S := SkillSql) (.insertVersion input.result)
    match input.revocation with
    | none => pure ()
    | some revocation => Program.perform (S := SkillSql) (.insertRevocation revocation)
    Program.perform (S := SkillSql) (.insertCommand ⟨input.command.idempotencyKey,
      input.commandHash, input.command.operation, input.command.skillId,
      input.command.expectedVersion, input.result.version, input.result,
      input.command.occurredAt⟩)
    Program.perform (S := SkillSql) (.insertAudit input.audit)

def commitBody (input : CommitInput) : Program SkillSql LifecycleError ProcedureSkillVersion := do
  match ← readLifecycleReplay input.command.idempotencyKey input.commandHash with
  | .replayed result => pure result
  | .conflict resultVersion => Program.throw (idempotencyConflict resultVersion)
  | .notFound => do
    persistLifecycleResult input
    pure input.result

abbrev SkillOperation := Operation SkillSql LifecycleError

/-- The store that works with immediate transactions on the connection it shares. -/
def sqliteSkillStore : SkillRepository SkillOperation where
  replayLifecycleCommand idempotencyKey commandHash :=
    .inTransaction (readLifecycleReplay idempotencyKey commandHash)
  latestVersion skillId := do
    match ← Operation.perform (S := SkillSql) (.readHead skillId) with
    | none => pure none
    | some head => Operation.perform (S := SkillSql) (.readVersion skillId head.currentVersion)
  evaluations skillId version :=
    Operation.perform (S := SkillSql) (.readEvaluations skillId version)
  bundle skillId version := Operation.perform (S := SkillSql) (.readBundle skillId version)
  commitLifecycleCommand input := .inTransaction (commitBody input)

end Qualigence.Skill
