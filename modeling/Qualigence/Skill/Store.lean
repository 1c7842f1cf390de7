import Qualigence.Foundation.Session
import Qualigence.Foundation.Table
import Qualigence.Skill.Signing

/-! # Lifecycle commands of skills

The tables of the skill stores with the statements that the lifecycle commands make on them, the
skill aggregate, the promotion policy, and the service that decides a command on what it read and
commits it. The service works over any store; here is the one whose statements share a connection.
-/

namespace Qualigence.Skill

open Foundation Protocol

/-! ## The tables -/

inductive Verdict where
  | passed
  | failed
  deriving DecidableEq

structure OracleResult where
  oracle : String
  status : Verdict
  detail : Option String
  deriving DecidableEq

structure SkillEvaluation where
  evaluationId : String
  skillId : String
  skillVersion : ℕ
  oracles : NonEmptyList OracleResult
  outcome : Verdict
  signatureValid : Bool
  createdAt : String
  deriving DecidableEq

structure SkillRevocation where
  revocationId : String
  skillId : String
  skillVersion : ℕ
  reason : String
  revokedAt : String
  deriving DecidableEq

/-- The head of a skill. -/
structure SkillRow where
  skillId : String
  currentVersion : ℕ
  currentState : SkillState
  updatedAt : String
  deriving DecidableEq

structure SkillLifecycleActorContext where
  actorId : String
  tenantId : String
  roles : List String
  deriving DecidableEq

inductive SkillLifecycleOperation where
  | promote (requiredOracles : List String)
  | «deprecate» (reason : String)
  deriving DecidableEq

/-- A command, with what its abort signal says when it is looked at, first and later. -/
structure SkillLifecycleCommand where
  operation : SkillLifecycleOperation
  skillId : String
  expectedVersion : ℕ
  idempotencyKey : String
  actor : SkillLifecycleActorContext
  occurredAt : String
  abortedAtFirst : Bool
  abortedBeforeCommit : Bool
  deriving DecidableEq

structure SkillLifecycleCommandRow where
  idempotencyKey : String
  commandHash : String
  operation : SkillLifecycleOperation
  skillId : String
  expectedVersion : ℕ
  resultVersion : ℕ
  result : ProcedureSkillVersion
  createdAt : String
  deriving DecidableEq

/-- A record of an allowed command. -/
structure SkillLifecycleAuditEvent where
  auditId : String
  skillId : String
  skillVersion : ℕ
  operation : SkillLifecycleOperation
  actor : SkillLifecycleActorContext
  reason : String
  fromVersion : ℕ
  fromState : SkillState
  toState : SkillState
  createdAt : String
  deriving DecidableEq

structure SkillDb where
  skills : Table SkillRow (·.skillId)
  versions : Table ProcedureSkillVersion fun v => (v.skillId, v.version)
  evaluations : Table SkillEvaluation (·.evaluationId)
  bundles : Table SignedSkillBundle fun b => (b.manifest.skillId, b.manifest.skillVersion)
  revocations : Table SkillRevocation (·.revocationId)
  commands : Table SkillLifecycleCommandRow (·.idempotencyKey)
  audits : Table SkillLifecycleAuditEvent (·.auditId)

/-! ## The statements -/

inductive SkillErrorCode where
  | skillVersionConflict
  | skillIdempotencyConflict
  | skillCommandAborted
  | skillNotFound
  | skillNotVerified
  | skillVerificationFailed
  | skillSignatureInvalid
  | skillBundleMissing
  | skillAlreadyDeprecated
  | skillStateReversal
  deriving DecidableEq

/-- An error of the domain, or one of the database. -/
inductive LifecycleError where
  | skill (code : SkillErrorCode) (message : String) (actualVersion : Option ℕ)
  | database (message : String)
  deriving DecidableEq

inductive SkillOp where
  | readCommand (idempotencyKey : String)
  | readHead (skillId : String)
  | readVersion (skillId : String) (version : ℕ)
  | readVersions (skillId : String)
  | readEvaluations (skillId : String) (version : ℕ)
  | readBundle (skillId : String) (version : ℕ)
  | readRevocations (skillId : String) (version : ℕ)
  | updateHead (skillId : String) (expectedVersion version : ℕ) (state : SkillState)
      (updatedAt : String)
  | insertVersion (version : ProcedureSkillVersion)
  | insertRevocation (revocation : SkillRevocation)
  | insertCommand (row : SkillLifecycleCommandRow)
  | insertAudit (event : SkillLifecycleAuditEvent)

/-- The statements and the type of their results; an update returns the number of its rows. -/
def SkillSql : Signature where
  Op := SkillOp
  Reply
    | .readCommand _ => Option SkillLifecycleCommandRow
    | .readHead _ => Option SkillRow
    | .readVersion _ _ => Option ProcedureSkillVersion
    | .readVersions _ => List ProcedureSkillVersion
    | .readEvaluations _ _ => List SkillEvaluation
    | .readBundle _ _ => Option SignedSkillBundle
    | .readRevocations _ _ => Option SkillRevocation
    | .updateHead .. => ℕ
    | _ => Unit

/-- An insertion, which fails when its key is taken. -/
def insertRow {ρ κ : Type} [DecidableEq κ] {key : ρ → κ} (table : String) (t : Table ρ key)
    (row : ρ) (put : Table ρ key → SkillDb) (db : SkillDb) : Except LifecycleError Unit × SkillDb :=
  match t.insert row with
  | some u => (.ok (), put u)
  | none => (.error (.database s!"UNIQUE constraint failed: {table}"), db)

/-- The rows of a version in the order of their times. -/
def SkillDb.evaluationsOf (db : SkillDb) (skillId : String) (version : ℕ) : List SkillEvaluation :=
  (db.evaluations.rows.filter fun e => e.skillId = skillId ∧ e.skillVersion = version).insertionSort
    fun x y => x.createdAt ≤ y.createdAt

/-- The versions of a skill in the order of their numbers. -/
def SkillDb.versionsOf (db : SkillDb) (skillId : String) : List ProcedureSkillVersion :=
  (db.versions.rows.filter fun v => v.skillId = skillId).insertionSort
    fun x y => x.version ≤ y.version

def SkillDb.revocationOf (db : SkillDb) (skillId : String) (version : ℕ) :
    Option SkillRevocation :=
  db.revocations.rows.find? fun r => r.skillId = skillId ∧ r.skillVersion = version

def selectsHead (skillId : String) (expectedVersion : ℕ) (row : SkillRow) : Bool :=
  row.skillId = skillId ∧ row.currentVersion = expectedVersion

def handleSkill : Handler SkillSql LifecycleError SkillDb
  | .readCommand key, db => (.ok (db.commands.get key), db)
  | .readHead skillId, db => (.ok (db.skills.get skillId), db)
  | .readVersion skillId version, db => (.ok (db.versions.get (skillId, version)), db)
  | .readVersions skillId, db => (.ok (db.versionsOf skillId), db)
  | .readEvaluations skillId version, db => (.ok (db.evaluationsOf skillId version), db)
  | .readBundle skillId version, db => (.ok (db.bundles.get (skillId, version)), db)
  | .readRevocations skillId version, db => (.ok (db.revocationOf skillId version), db)
  | .updateHead skillId expectedVersion version state updatedAt, db =>
    (.ok (db.skills.count (selectsHead skillId expectedVersion)),
      { db with
        skills := db.skills.update (selectsHead skillId expectedVersion)
          (fun r => ⟨r.skillId, version, state, updatedAt⟩) fun _ => rfl })
  | .insertVersion version, db =>
    insertRow "skill_versions" db.versions version (fun versions => { db with versions }) db
  | .insertRevocation revocation, db =>
    insertRow "skill_revocations" db.revocations revocation
      (fun revocations => { db with revocations }) db
  | .insertCommand row, db =>
    insertRow "skill_lifecycle_commands" db.commands row (fun commands => { db with commands }) db
  | .insertAudit event, db =>
    insertRow "skill_lifecycle_audit_events" db.audits event (fun audits => { db with audits }) db

theorem insertRow_unchanged {ρ κ : Type} [DecidableEq κ] {key : ρ → κ} {table : String}
    {t : Table ρ key} {row : ρ} {put : Table ρ key → SkillDb} {db : SkillDb} {e : LifecycleError}
    (h : (insertRow table t row put db).1 = .error e) : (insertRow table t row put db).2 = db := by
  unfold insertRow at h ⊢
  cases ht : t.insert row with
  | none => rfl
  | some u =>
    rw [ht] at h
    cases h

def skillDatabase : Database SkillSql LifecycleError SkillDb where
  handle := handleSkill
  unchanged_of_error := by
    intro op db e h
    cases op with
    | insertVersion _ => exact insertRow_unchanged h
    | insertRevocation _ => exact insertRow_unchanged h
    | insertCommand _ => exact insertRow_unchanged h
    | insertAudit _ => exact insertRow_unchanged h
    | _ => cases h

end Qualigence.Skill
