import Qualigence.Foundation.Table
import Qualigence.Protocol.JsonParse
import Qualigence.Review.Task
import Qualigence.Sqlite.Runtime

/-! # The review store

A claim and a resolution each run in one transaction: the idempotency key is reserved first, the
task is advanced by a compare-and-set, and a compare-and-set that fails gives the key back. A key
that is taken answers with the task when it was taken for the same command.
-/

namespace Qualigence.Sqlite

open Foundation Review
open Protocol (JsValue textOf)

structure ReviewClaimRow where
  idempotencyKey : String
  taskId : String
  reviewerId : String
  claimedVersion : ℤ
  deriving DecidableEq

structure ReviewResolutionRow where
  idempotencyKey : String
  taskId : String
  caseId : String
  reviewerId : String
  disposition : String
  evidenceRefsJson : String
  resolvedVersion : ℤ
  deriving DecidableEq

structure ReviewDb where
  tasks : Table ReviewTask ReviewTask.taskId
  claims : Table ReviewClaimRow ReviewClaimRow.idempotencyKey
  resolutions : Table ReviewResolutionRow ReviewResolutionRow.idempotencyKey

def ReviewDb.empty : ReviewDb := ⟨.empty, .empty, .empty⟩

/-- What an operation of the store returns. -/
abbrev ReviewResult := Except SqliteFault (Option ReviewTask)

/-- An audit row for a task that is not there. -/
def foreignKeyViolation : SqliteFault :=
  .driver "SQLITE_CONSTRAINT_FOREIGNKEY" "FOREIGN KEY constraint failed"

def stringifyRefs (refs : List String) : String :=
  String.ofList (textOf (.arr (refs.map JsValue.str)))

namespace ReviewDb

def create (db : ReviewDb) (task : ReviewTask) : ReviewDb :=
  match db.tasks.insert task with
  | some tasks => { db with tasks }
  | none => db

/-- Open a fresh task from a draft and persist it. -/
def openTask (db : ReviewDb) (draft : ReviewTaskDraft) : ReviewDb := db.create (openReviewTask draft)

def find (db : ReviewDb) (taskId : String) : Option ReviewTask := db.tasks.get taskId

def claimRow (command : ClaimReviewTaskCommand) : ReviewClaimRow where
  idempotencyKey := command.idempotencyKey
  taskId := command.taskId
  reviewerId := command.reviewerId
  claimedVersion := command.expectedVersion + 1

/-- The tasks that the compare-and-set of a claim selects. -/
def claimable (command : ClaimReviewTaskCommand) (task : ReviewTask) : Bool :=
  decide (task.taskId = command.taskId ∧ task.status = .open ∧
    task.version = command.expectedVersion)

def setClaimed (command : ClaimReviewTaskCommand) (task : ReviewTask) : ReviewTask :=
  { task with
    status := .claimed
    assigneeId := some command.reviewerId
    version := command.expectedVersion + 1 }

/-- The transaction of `claim`. -/
def claim (db : ReviewDb) (command : ClaimReviewTaskCommand) : ReviewResult × ReviewDb :=
  match db.claims.insert (claimRow command) with
  | none =>
    match db.claims.get command.idempotencyKey with
    | some replay =>
      if replay.taskId = command.taskId ∧ replay.reviewerId = command.reviewerId ∧
          replay.claimedVersion = command.expectedVersion + 1 then
        (.ok (db.find command.taskId), db)
      else (.ok none, db)
    | none => (.ok none, db)
  | some claims =>
    if db.find command.taskId = none then (.error foreignKeyViolation, db)
    else if db.tasks.count (claimable command) = 0 then
      let reserved := fun row : ReviewClaimRow =>
        decide (row.idempotencyKey = command.idempotencyKey ∧ row.taskId = command.taskId)
      (.ok none, { db with claims := claims.delete reserved })
    else
      let db := { db with
        claims
        tasks := db.tasks.update (claimable command) (setClaimed command) (fun _ => rfl) }
      (.ok (db.find command.taskId), db)

def resolutionRow (caseId : String) (command : ResolveReviewTaskCommand) :
    ReviewResolutionRow where
  idempotencyKey := command.idempotencyKey
  taskId := command.taskId
  caseId
  reviewerId := command.reviewerId
  disposition := command.disposition
  evidenceRefsJson := stringifyRefs command.evidenceRefs
  resolvedVersion := command.expectedVersion + 1

/-- The tasks that the compare-and-set of a resolution selects. -/
def resolvable (command : ResolveReviewTaskCommand) (task : ReviewTask) : Bool :=
  decide (task.taskId = command.taskId ∧ task.status = .claimed ∧
    task.version = command.expectedVersion ∧ task.assigneeId = some command.reviewerId)

def setResolved (command : ResolveReviewTaskCommand) (task : ReviewTask) : ReviewTask :=
  { task with status := .resolved, version := command.expectedVersion + 1 }

/-- The transaction of `resolve`, with the case of the task as it was read before. -/
def resolve (db : ReviewDb) (caseId : String) (command : ResolveReviewTaskCommand) :
    ReviewResult × ReviewDb :=
  match db.resolutions.insert (resolutionRow caseId command) with
  | none =>
    match db.resolutions.get command.idempotencyKey with
    | some replay =>
      if replay.taskId = command.taskId ∧ replay.reviewerId = command.reviewerId ∧
          replay.disposition = command.disposition ∧
          replay.evidenceRefsJson = stringifyRefs command.evidenceRefs ∧
          replay.resolvedVersion = command.expectedVersion + 1 then
        (.ok (db.find command.taskId), db)
      else (.ok none, db)
    | none => (.ok none, db)
  | some resolutions =>
    if db.find command.taskId = none then (.error foreignKeyViolation, db)
    else if db.tasks.count (resolvable command) = 0 then
      let reserved := fun row : ReviewResolutionRow =>
        decide (row.idempotencyKey = command.idempotencyKey ∧ row.taskId = command.taskId)
      (.ok none, { db with resolutions := resolutions.delete reserved })
    else
      let db := { db with
        resolutions
        tasks := db.tasks.update (resolvable command) (setResolved command) (fun _ => rfl) }
      (.ok (db.find command.taskId), db)

end ReviewDb

/-! ## Calls -/

inductive ReviewCommand where
  | claim (command : ClaimReviewTaskCommand)
  | resolve (command : ResolveReviewTaskCommand)
  deriving DecidableEq

/-- How far a call has come. A transaction is tried twice when the database is busy. -/
inductive ReviewPhase where
  | started
  | writing (caseId : String) (attempt : ℕ)
  | returned (result : ReviewResult)

structure ReviewCall where
  command : ReviewCommand
  phase : ReviewPhase

namespace ReviewCall

/-- A claim goes straight to its transaction, a resolution first looks for its task. -/
def submit : ReviewCommand → ReviewCall
  | .claim command => ⟨.claim command, .writing "" 0⟩
  | .resolve command => ⟨.resolve command, .started⟩

def busyError : SqliteFault := .driver "SQLITE_BUSY" "database is locked"

/-- The next step of a call; `busy` is whether the database is when its transaction is tried. -/
def turn (db : ReviewDb) (busy : Bool) (call : ReviewCall) : ReviewCall × ReviewDb :=
  match call.phase, call.command with
  | .started, .claim _ => ({ call with phase := .writing "" 0 }, db)
  | .started, .resolve command =>
    match db.find command.taskId with
    | none => ({ call with phase := .returned (.ok none) }, db)
    | some current => ({ call with phase := .writing current.caseId 0 }, db)
  | .writing caseId attempt, command =>
    if busy then
      if attempt = 1 then ({ call with phase := .returned (.error (mapBusyError busyError)) }, db)
      else ({ call with phase := .writing caseId (attempt + 1) }, db)
    else
      let (result, db) := match command with
        | .claim command => db.claim command
        | .resolve command => db.resolve caseId command
      ({ call with phase := .returned result }, db)
  | .returned _, _ => (call, db)

end ReviewCall

end Qualigence.Sqlite
