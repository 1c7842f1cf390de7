import Qualigence.Evidence.Contracts
import Qualigence.Foundation.Table
import Qualigence.Sqlite.Runtime

/-! # Benchmark runs and audit events in SQLite

The benchmark store saves a run with one statement and appends an attempt in a transaction. The
evidence store records an audit event with one statement. Rows are append-only: an insertion whose
key is taken does nothing.
-/

namespace Qualigence.Sqlite

open Foundation
open Evidence (EvidenceAuditEvent)

structure BenchmarkRunRecord where
  runId : String
  benchmarkVersion : String
  manifestSha256 : String
  profileSha256 : String
  groundTruthSha256 : String
  createdAt : String
  deriving DecidableEq

/-- A row of `benchmark_attempts`. -/
structure BenchmarkAttemptRow where
  attemptId : String
  runId : String
  profileSha256 : String
  scenarioId : String
  mode : String
  repetition : Int
  terminalReason : String
  findingsJson : String
  createdAt : String
  deriving DecidableEq

/-- A row of `exploration_checkpoints`. -/
structure ExplorationCheckpointRow where
  attemptId : String
  step : Int
  graphFingerprint : String
  remainingJson : String
  terminalReason : Option String
  deriving DecidableEq

def ExplorationCheckpointRow.key (r : ExplorationCheckpointRow) : String × Int :=
  (r.attemptId, r.step)

structure BenchmarkDb where
  benchmarkRuns : Table BenchmarkRunRecord BenchmarkRunRecord.runId
  benchmarkAttempts : Table BenchmarkAttemptRow BenchmarkAttemptRow.attemptId
  explorationCheckpoints : Table ExplorationCheckpointRow ExplorationCheckpointRow.key
  evidenceAuditEvents : Table EvidenceAuditEvent EvidenceAuditEvent.auditId

inductive BenchmarkStatement where
  | insertRun (row : BenchmarkRunRecord)
  | insertAttempt (row : BenchmarkAttemptRow)
  | insertCheckpoint (row : ExplorationCheckpointRow)
  | insertAuditEvent (row : EvidenceAuditEvent)
  | selectAttempts (runId : String)
  deriving DecidableEq

def BenchmarkStatement.isWrite : BenchmarkStatement → Bool
  | .selectAttempts _ => false
  | _ => true

abbrev BenchmarkSql : Signature where
  Op := BenchmarkStatement
  Reply
    | .selectAttempts _ => List BenchmarkAttemptRow
    | _ => Unit

def foreignKeyFault : SqliteFault :=
  .driver "SQLITE_CONSTRAINT_FOREIGNKEY" "FOREIGN KEY constraint failed"

def checkFault : SqliteFault := .driver "SQLITE_CONSTRAINT_CHECK" "CHECK constraint failed"

/-- `ON CONFLICT DO NOTHING`. -/
def insertOrIgnore {ρ κ : Type} {key : ρ → κ} [DecidableEq κ] (t : Table ρ key) (r : ρ) :
    Table ρ key := (t.insert r).getD t

def benchmarkHandler : Handler BenchmarkSql SqliteFault BenchmarkDb
  | .insertRun row, db =>
    (.ok (), { db with benchmarkRuns := insertOrIgnore db.benchmarkRuns row })
  | .insertAttempt row, db =>
    if row.mode ≠ "normal" ∧ row.mode ≠ "fault" then (.error checkFault, db)
    else if (db.benchmarkAttempts.get row.attemptId).isSome then (.ok (), db)
    else if (db.benchmarkRuns.get row.runId).isNone then (.error foreignKeyFault, db)
    else (.ok (), { db with benchmarkAttempts := insertOrIgnore db.benchmarkAttempts row })
  | .insertCheckpoint row, db =>
    if (db.explorationCheckpoints.get row.key).isSome then (.ok (), db)
    else if (db.benchmarkAttempts.get row.attemptId).isNone then (.error foreignKeyFault, db)
    else (.ok (), { db with
      explorationCheckpoints := insertOrIgnore db.explorationCheckpoints row })
  | .insertAuditEvent row, db =>
    (.ok (), { db with evidenceAuditEvents := insertOrIgnore db.evidenceAuditEvents row })
  | .selectAttempts runId, db =>
    (.ok (db.benchmarkAttempts.rows.filter fun row => row.runId = runId), db)

theorem benchmarkHandler_unchanged (op : BenchmarkStatement) (db : BenchmarkDb) (e : SqliteFault)
    (h : (benchmarkHandler op db).1 = .error e) : (benchmarkHandler op db).2 = db := by
  cases op with
  | insertRun row => cases h
  | insertAuditEvent row => cases h
  | selectAttempts runId => cases h
  | insertAttempt row =>
    revert h
    simp only [benchmarkHandler]
    split
    · exact fun _ => rfl
    split
    · exact fun _ => rfl
    split
    · exact fun _ => rfl
    · exact fun h => by cases h
  | insertCheckpoint row =>
    revert h
    simp only [benchmarkHandler]
    split
    · exact fun _ => rfl
    split
    · exact fun _ => rfl
    · exact fun h => by cases h

def benchmarkDatabase : Database BenchmarkSql SqliteFault BenchmarkDb :=
  ⟨benchmarkHandler, benchmarkHandler_unchanged⟩

inductive BenchmarkRequest where
  | saveRun (run : BenchmarkRunRecord)
  | appendAttempt (attempt : BenchmarkAttemptRow) (checkpoints : List ExplorationCheckpointRow)
  | record (event : EvidenceAuditEvent)

def saveRun (run : BenchmarkRunRecord) : Operation BenchmarkSql SqliteFault Unit :=
  .perform (S := BenchmarkSql) (.insertRun run)

def appendAttempt (attempt : BenchmarkAttemptRow) (checkpoints : List ExplorationCheckpointRow) :
    Operation BenchmarkSql SqliteFault Unit :=
  runInImmediateTransaction do
    let _ : Unit ← Program.perform (S := BenchmarkSql) (.insertAttempt attempt)
    checkpoints.forM fun checkpoint =>
      (Program.perform (S := BenchmarkSql) (.insertCheckpoint checkpoint) : Program _ _ Unit)

def record (event : EvidenceAuditEvent) : Operation BenchmarkSql SqliteFault Unit :=
  .perform (S := BenchmarkSql) (.insertAuditEvent event)

def BenchmarkRequest.operation : BenchmarkRequest → Operation BenchmarkSql SqliteFault Unit
  | .saveRun run => Sqlite.saveRun run
  | .appendAttempt attempt checkpoints => Sqlite.appendAttempt attempt checkpoints
  | .record event => Sqlite.record event

/-! ## A run that is lost -/

def sampleRun : BenchmarkRunRecord := ⟨"run-2", "1", "m", "p", "g", "2026-01-01T00:00:00.000Z"⟩

def sampleAttempt : BenchmarkAttemptRow :=
  ⟨"attempt-1", "run-1", "p", "checkout", "normal", 1, "objective_satisfied", "[]",
    "2026-01-01T00:00:00.000Z"⟩

/-- An attempt of a run that was not saved is appended, and another run is saved after the
transaction of the attempt has begun. -/
def interleavedSaves : List (SessionEvent BenchmarkRequest SqliteFault) :=
  [.spawn 0 (.appendAttempt sampleAttempt []), .spawn 1 (.saveRun sampleRun), .advance 0 none,
    .advance 1 none, .advance 0 none, .advance 0 none]

def emptyBenchmarkDb : BenchmarkDb := ⟨.empty, .empty, .empty, .empty⟩

end Qualigence.Sqlite
