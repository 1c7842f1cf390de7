import Qualigence.Foundation.Table
import Qualigence.Protocol.Messages
import Qualigence.Sqlite.Runtime

/-! # The intake of local runs

The SQLite store in which Core keeps the runs that it offers to the local Runner: the state of
their dispatch, and that of their completion with its retries.
-/

namespace Qualigence.Sqlite

open Foundation Protocol

structure LocalCompletionRetryPolicy where
  retryBaseMs : ℕ
  retryMaximumMs : ℕ
  maximumAttempts : ℕ

def maxRetryMs : ℕ := 300000
def maxAttempts : ℕ := 64

/-- `positive`: the second argument is the maximum. -/
def positive (value maximum : ℕ) : Prop := 0 < value ∧ value ≤ maximum

/-- The constructor of the store accepts a policy. -/
structure LocalCompletionRetryPolicy.Valid (p : LocalCompletionRetryPolicy) : Prop where
  base : positive p.retryBaseMs maxRetryMs
  maximum : positive p.retryMaximumMs maxRetryMs
  attempts : positive p.maximumAttempts maxAttempts
  ordered : p.retryBaseMs ≤ p.retryMaximumMs

inductive LocalDispatchState where
  | pendingRunner
  | dispatching
  | offerOutcomeUnknown
  | offered
  deriving DecidableEq

inductive LocalCompletionState where
  | awaiting
  | applied
  | integrityBlocked
  | retryExhausted
  deriving DecidableEq

inductive LocalRunStatus where
  | running
  | passed
  | finding
  | blocked
  | error
  deriving DecidableEq

def completionRunStatus (c : ExecutionCompletion) : LocalRunStatus :=
  match c.status with
  | .passed => .passed
  | .finding _ => .finding
  | .blocked _ => .blocked
  | .error _ => .error

def completionErrorCode (c : ExecutionCompletion) : Option String :=
  match c.status with
  | .blocked errorCode => errorCode
  | .error errorCode => some errorCode
  | _ => none

/-- A row of `execution_runs`. -/
structure ExecutionRunRow where
  runId : String
  jobId : String
  targetKind : String
  objective : String
  status : LocalRunStatus
  nextSequenceNumber : ℕ
  createdAt : Timestamp
  completedAt : Option Timestamp
  errorCode : Option String
  deriving DecidableEq

/-- A row of `local_run_intakes`; the column `job_json` holds the job. -/
structure LocalRunIntakeRow where
  runId : String
  jobId : String
  job : AcceptedExecutionJob
  jobSha256 : String
  dispatchState : LocalDispatchState
  dispatchAttempt : ℤ
  dispatchLastAttemptAt : Option Timestamp
  dispatchErrorCode : Option String
  completionState : LocalCompletionState
  completionAttempt : ℤ
  completionLastAttemptAt : Option Timestamp
  completionNextAttemptAt : Timestamp
  completionErrorCode : Option String
  completionSha256 : Option String
  completionAppliedAt : Option Timestamp
  completionBlockedAt : Option Timestamp
  createdAt : Timestamp
  updatedAt : Timestamp
  deriving DecidableEq

structure IntakeDb where
  runs : Table ExecutionRunRow ExecutionRunRow.runId
  intakes : Table LocalRunIntakeRow LocalRunIntakeRow.runId

def IntakeDb.initial : IntakeDb := ⟨.empty, .empty⟩

/-- What `applyCompletion` selects. -/
structure CompletionTarget where
  jobId : String
  jobSha256 : String
  completionState : LocalCompletionState
  completionAttempt : ℤ
  completionSha256 : Option String
  status : LocalRunStatus
  completedAt : Option Timestamp
  errorCode : Option String
  deriving DecidableEq

/-! ## Statements -/

inductive IntakeStatement where
  | insertRun (row : ExecutionRunRow)
  | insertIntake (row : LocalRunIntakeRow)
  | beginOffer (runId : String) (expectedAttempt : ℤ) (startedAt : Timestamp)
  | finishDispatch (runId : String) (attempt : ℤ) (state : LocalDispatchState) (at' : Timestamp)
      (errorCode : Option String)
  | quarantine (at' : Timestamp)
  | selectCompletion (runId : String)
  | exhaust (runId : String) (expectedAttempt attempt : ℤ) (failedAt : Timestamp)
      (errorCode : String)
  | schedule (runId : String) (expectedAttempt attempt : ℤ) (failedAt nextAttemptAt : Timestamp)
      (errorCode : String)
  | selectTarget (runId : String)
  | finishRun (runId : String) (status : LocalRunStatus) (completedAt : Timestamp)
      (errorCode : Option String)
  | markApplied (runId : String) (expectedAttempt : ℤ) (sha256 : String) (completedAt : Timestamp)
  | block (runId : String) (expectedAttempt : ℤ) (errorCode : String) (blockedAt : Timestamp)
  | selectState (runId : String)

def IntakeStatement.isWrite : IntakeStatement → Bool
  | .selectCompletion _ | .selectTarget _ | .selectState _ => false
  | _ => true

/-- An update is answered with the number of rows that it changed. -/
abbrev IntakeSql : Signature where
  Op := IntakeStatement
  Reply
    | .insertRun _ | .insertIntake _ => Unit
    | .selectCompletion _ => Option (LocalCompletionState × ℤ)
    | .selectTarget _ => Option CompletionTarget
    | .selectState _ => Option LocalCompletionState
    | _ => ℕ

namespace LocalRunIntakeRow

def begun (r : LocalRunIntakeRow) (expectedAttempt : ℤ) (startedAt : Timestamp) :
    LocalRunIntakeRow :=
  { r with
    dispatchState := .dispatching
    dispatchAttempt := expectedAttempt + 1
    dispatchLastAttemptAt := some startedAt
    dispatchErrorCode := none
    updatedAt := startedAt }

def dispatched (r : LocalRunIntakeRow) (state : LocalDispatchState) (at' : Timestamp)
    (errorCode : Option String) : LocalRunIntakeRow :=
  { r with dispatchState := state, dispatchErrorCode := errorCode, updatedAt := at' }

def exhausted (r : LocalRunIntakeRow) (attempt : ℤ) (failedAt : Timestamp) (errorCode : String) :
    LocalRunIntakeRow :=
  { r with
    completionState := .retryExhausted
    completionAttempt := attempt
    completionLastAttemptAt := some failedAt
    completionErrorCode := some errorCode
    completionBlockedAt := some failedAt
    updatedAt := failedAt }

def scheduled (r : LocalRunIntakeRow) (attempt : ℤ) (failedAt nextAttemptAt : Timestamp)
    (errorCode : String) : LocalRunIntakeRow :=
  { r with
    completionAttempt := attempt
    completionLastAttemptAt := some failedAt
    completionNextAttemptAt := nextAttemptAt
    completionErrorCode := some errorCode
    updatedAt := failedAt }

def applied (r : LocalRunIntakeRow) (sha256 : String) (completedAt : Timestamp) :
    LocalRunIntakeRow :=
  { r with
    completionState := .applied
    completionSha256 := some sha256
    completionAppliedAt := some completedAt
    completionErrorCode := none
    updatedAt := completedAt }

def blocked (r : LocalRunIntakeRow) (errorCode : String) (blockedAt : Timestamp) :
    LocalRunIntakeRow :=
  { r with
    completionState := .integrityBlocked
    completionErrorCode := some errorCode
    completionBlockedAt := some blockedAt
    updatedAt := blockedAt }

/-- `run_id = ? AND completion_state = 'awaiting' AND completion_attempt = ?`. -/
def awaits (runId : String) (expectedAttempt : ℤ) (r : LocalRunIntakeRow) : Bool :=
  r.runId = runId ∧ r.completionState = .awaiting ∧ r.completionAttempt = expectedAttempt

end LocalRunIntakeRow

def uniqueFault (column : String) : SqliteFault :=
  .driver "SQLITE_CONSTRAINT_UNIQUE" ("UNIQUE constraint failed: " ++ column)

namespace IntakeDb

/-- `UPDATE local_run_intakes`. -/
def updateIntakes (p : LocalRunIntakeRow → Bool) (f : LocalRunIntakeRow → LocalRunIntakeRow)
    (hf : ∀ r, (f r).runId = r.runId) (db : IntakeDb) : Except SqliteFault ℕ × IntakeDb :=
  (.ok (db.intakes.count p), { db with intakes := db.intakes.update p f hf })

def insertRun (row : ExecutionRunRow) (db : IntakeDb) : Except SqliteFault Unit × IntakeDb :=
  match db.runs.insert row with
  | none => (.error (uniqueFault "execution_runs.run_id"), db)
  | some runs => (.ok (), { db with runs })

def insertIntake (row : LocalRunIntakeRow) (db : IntakeDb) : Except SqliteFault Unit × IntakeDb :=
  if db.intakes.rows.any fun r => r.jobId = row.jobId then
    (.error (uniqueFault "local_run_intakes.job_id"), db)
  else if (db.runs.get row.runId).isNone then
    (.error (.driver "SQLITE_CONSTRAINT_FOREIGNKEY" "FOREIGN KEY constraint failed"), db)
  else match db.intakes.insert row with
    | none => (.error (uniqueFault "local_run_intakes.run_id"), db)
    | some intakes => (.ok (), { db with intakes })

/-- The join of the two rows of a run. -/
def target (runId : String) (db : IntakeDb) : Option CompletionTarget := do
  let intake ← db.intakes.get runId
  let run ← db.runs.get runId
  return ⟨intake.jobId, intake.jobSha256, intake.completionState, intake.completionAttempt,
    intake.completionSha256, run.status, run.completedAt, run.errorCode⟩

end IntakeDb

def intakeHandler : Handler IntakeSql SqliteFault IntakeDb
  | .insertRun row, db => db.insertRun row
  | .insertIntake row, db => db.insertIntake row
  | .beginOffer runId expectedAttempt startedAt, db =>
    db.updateIntakes (fun r => r.runId = runId ∧ r.dispatchState = .pendingRunner ∧
      r.dispatchAttempt = expectedAttempt) (·.begun expectedAttempt startedAt) fun _ => rfl
  | .finishDispatch runId attempt state at' errorCode, db =>
    db.updateIntakes (fun r => r.runId = runId ∧ r.dispatchState = .dispatching ∧
      r.dispatchAttempt = attempt) (·.dispatched state at' errorCode) fun _ => rfl
  | .quarantine at', db =>
    db.updateIntakes (fun r => r.dispatchState = .dispatching)
      (·.dispatched .offerOutcomeUnknown at' (some "OfferInterrupted")) fun _ => rfl
  | .selectCompletion runId, db =>
    (.ok ((db.intakes.get runId).map fun r => (r.completionState, r.completionAttempt)), db)
  | .exhaust runId expectedAttempt attempt failedAt errorCode, db =>
    db.updateIntakes (LocalRunIntakeRow.awaits runId expectedAttempt)
      (·.exhausted attempt failedAt errorCode) fun _ => rfl
  | .schedule runId expectedAttempt attempt failedAt nextAttemptAt errorCode, db =>
    db.updateIntakes (LocalRunIntakeRow.awaits runId expectedAttempt)
      (·.scheduled attempt failedAt nextAttemptAt errorCode) fun _ => rfl
  | .selectTarget runId, db => (.ok (db.target runId), db)
  | .finishRun runId status completedAt errorCode, db =>
    (.ok (db.runs.count fun r => r.runId = runId ∧ r.status = .running), { db with
      runs := db.runs.update (fun r => r.runId = runId ∧ r.status = .running)
        (fun r => { r with status, completedAt := some completedAt, errorCode }) fun _ => rfl })
  | .markApplied runId expectedAttempt sha256 completedAt, db =>
    db.updateIntakes (LocalRunIntakeRow.awaits runId expectedAttempt)
      (·.applied sha256 completedAt) fun _ => rfl
  | .block runId expectedAttempt errorCode blockedAt, db =>
    db.updateIntakes (LocalRunIntakeRow.awaits runId expectedAttempt)
      (·.blocked errorCode blockedAt) fun _ => rfl
  | .selectState runId, db => (.ok ((db.intakes.get runId).map (·.completionState)), db)

theorem intakeHandler_unchanged (op : IntakeStatement) (db : IntakeDb) (e : SqliteFault)
    (h : (intakeHandler op db).1 = .error e) : (intakeHandler op db).2 = db := by
  cases op with
  | insertRun row =>
    revert h
    simp only [intakeHandler, IntakeDb.insertRun]
    split
    · exact fun _ => rfl
    · exact fun h => by cases h
  | insertIntake row =>
    revert h
    simp only [intakeHandler, IntakeDb.insertIntake]
    split
    · exact fun _ => rfl
    split
    · exact fun _ => rfl
    split
    · exact fun _ => rfl
    · exact fun h => by cases h
  | _ => cases h

def intakeDatabase : Database IntakeSql SqliteFault IntakeDb :=
  ⟨intakeHandler, intakeHandler_unchanged⟩

/-! ## Operations -/

/-- An `Error` that the store raises itself. -/
def raised (name message : String) : SqliteFault := .driver name message

def invalidTimestamp : SqliteFault := raised "Error" "Invalid canonical timestamp."

/-- `instant`, with the time value of the text. -/
def instant (value : Timestamp) : Except SqliteFault Int :=
  match instantMs value with
  | some ms => .ok ms
  | none => .error invalidTimestamp

/-- `new Date(ms).toISOString()`, for the time of a retry. -/
def retryInstant (ms : Int) : Except SqliteFault Timestamp :=
  if Job.maxSafeInteger < ms.natAbs then .error (raised "Error" "Completion retry timestamp overflow.")
  else if maxTimeValue < ms.natAbs then .error (raised "RangeError" "Invalid time value")
  else .ok (toISOString ms)

/-- `/^[A-Za-z][A-Za-z0-9]{0,63}$/`, else a code of its own. -/
def safeCode (value : String) : String :=
  match value.toList with
  | c :: rest =>
    if c.isAlpha ∧ rest.all Char.isAlphanum ∧ rest.length ≤ 63 then value else "OfferFailed"
  | [] => "OfferFailed"

def cappedPower (value : ℕ) : (exponent cap : ℕ) → ℕ
  | 0, _ => value
  | exponent + 1, cap =>
    if (cap + 1) / 2 ≤ value then cap else cappedPower (value * 2) exponent cap

inductive RetryResult where
  | scheduled (attempt : ℤ) (nextAttemptAt : Timestamp)
  | blocked
  | stale
  deriving DecidableEq

inductive LocalCompletionApplyResult where
  | applied
  | duplicate
  | stale
  | identityMismatch
  | completionConflict
  deriving DecidableEq

inductive BlockResult where
  | blocked
  | stale
  deriving DecidableEq

/-- One statement of the store, with the rest of a program after its reply. -/
abbrev IntakeProgram := Program IntakeSql SqliteFault
abbrev IntakeOperation := Operation IntakeSql SqliteFault

namespace LocalRunIntakeStore

variable (P : Platform) (policy : LocalCompletionRetryPolicy)

/-- The rows of a new run. -/
def newRun (job : AcceptedExecutionJob) (createdAt : Timestamp) : ExecutionRunRow where
  runId := job.runId
  jobId := job.jobId
  targetKind := match job.target with
    | .web _ => "web"
    | .desktop _ => "desktop"
  objective := job.objective
  status := .running
  nextSequenceNumber := 1
  createdAt
  completedAt := none
  errorCode := none

def newIntake (job : AcceptedExecutionJob) (jobSha256 : String) (createdAt : Timestamp) :
    LocalRunIntakeRow where
  runId := job.runId
  jobId := job.jobId
  job
  jobSha256
  dispatchState := .pendingRunner
  dispatchAttempt := 0
  dispatchLastAttemptAt := none
  dispatchErrorCode := none
  completionState := .awaiting
  completionAttempt := 0
  completionLastAttemptAt := none
  completionNextAttemptAt := createdAt
  completionErrorCode := none
  completionSha256 := none
  completionAppliedAt := none
  completionBlockedAt := none
  createdAt
  updatedAt := createdAt

def create (job : AcceptedExecutionJob) (createdAt : Timestamp) : IntakeOperation Unit :=
  match instant createdAt, parseExecutionJob P job.toValue with
  | .error e, _ => throw e
  | _, .error _ => throw (raised "Error" "malformed execution Job")
  | .ok _, .ok job =>
    runInImmediateTransaction do
      let _ : Unit ← Program.perform (S := IntakeSql) (.insertRun (newRun job createdAt))
      match canonicalPayloadHash P job.toValue with
      | none => .throw (raised "TypeError" "data argument must be a string")
      | some jobSha256 =>
        Program.perform (S := IntakeSql) (.insertIntake (newIntake job jobSha256 createdAt))

def beginOffer (runId : String) (expectedAttempt : ℤ) (startedAt : Timestamp) :
    IntakeOperation Bool :=
  match instant startedAt with
  | .error e => throw e
  | .ok _ => do
    let updated : ℕ ← Operation.perform (S := IntakeSql)
      (.beginOffer runId expectedAttempt startedAt)
    return updated = 1

def finishDispatch (runId : String) (expectedAttempt : ℤ) (state : LocalDispatchState)
    (at' : Timestamp) (errorCode : Option String) : IntakeOperation Bool :=
  match instant at' with
  | .error e => throw e
  | .ok _ => do
    let updated : ℕ ← Operation.perform (S := IntakeSql)
      (.finishDispatch runId (expectedAttempt + 1) state at' errorCode)
    return updated = 1

def markOffered (runId : String) (expectedAttempt : ℤ) (offeredAt : Timestamp) :
    IntakeOperation Bool :=
  finishDispatch runId expectedAttempt .offered offeredAt none

def markOfferOutcomeUnknown (runId : String) (expectedAttempt : ℤ) (failedAt : Timestamp)
    (errorCode : String) : IntakeOperation Bool :=
  finishDispatch runId expectedAttempt .offerOutcomeUnknown failedAt (some (safeCode errorCode))

def quarantineInterruptedDispatches (quarantinedAt : Timestamp) : IntakeOperation ℕ :=
  match instant quarantinedAt with
  | .error e => throw e
  | .ok _ => Operation.perform (S := IntakeSql) (.quarantine quarantinedAt)

/-- The delay before the next attempt. -/
def retryDelay (attempt : ℤ) : ℕ :=
  min policy.retryMaximumMs
    (cappedPower policy.retryBaseMs (attempt - 1).toNat policy.retryMaximumMs)

/-- The transaction of `recordCompletionFailure`; `failedMs` is the time value of `failedAt`. -/
def retryOrExhaust (runId : String) (expectedAttempt : ℤ) (errorCode : String)
    (failedAt : Timestamp) (failedMs : Int) : IntakeProgram RetryResult := do
  let row : Option (LocalCompletionState × ℤ) ←
    Program.perform (S := IntakeSql) (.selectCompletion runId)
  match row with
  | none => return .stale
  | some (completionState, completionAttempt) =>
    if completionState = .applied ∨ completionAttempt ≠ expectedAttempt then return .stale
    else if completionState ≠ .awaiting then return .blocked
    else if policy.maximumAttempts ≤ expectedAttempt + 1 then
      let _ : ℕ ← Program.perform (S := IntakeSql)
        (.exhaust runId expectedAttempt (expectedAttempt + 1) failedAt errorCode)
      return .blocked
    else match retryInstant (failedMs + retryDelay policy (expectedAttempt + 1)) with
      | .error e => .throw e
      | .ok nextAttemptAt =>
        let updated : ℕ ← Program.perform (S := IntakeSql)
          (.schedule runId expectedAttempt (expectedAttempt + 1) failedAt nextAttemptAt errorCode)
        return if updated = 1 then .scheduled (expectedAttempt + 1) nextAttemptAt else .stale

def recordCompletionFailure (runId : String) (expectedAttempt : ℤ) (errorCode : String)
    (failedAt : Timestamp) : IntakeOperation RetryResult :=
  match instant failedAt with
  | .error e => throw e
  | .ok failedMs => runInImmediateTransaction
      (retryOrExhaust policy runId expectedAttempt errorCode failedAt failedMs)

/-- The transaction of `applyCompletion`. -/
def applyOrRefuse (runId : String) (expectedAttempt : ℤ) (jobId jobSha256 : String)
    (completion : ExecutionCompletion) (completedAt : Timestamp) :
    IntakeProgram LocalCompletionApplyResult := do
  let row : Option CompletionTarget ← Program.perform (S := IntakeSql) (.selectTarget runId)
  match row, canonicalPayloadHash P completion.toValue with
  | none, _ => return .stale
  | some _, none => .throw (raised "TypeError" "data argument must be a string")
  | some row, some hash =>
    if row.completionState = .applied then
      return if row.jobId = jobId ∧ row.jobSha256 = jobSha256 ∧ row.completionSha256 = some hash ∧
          row.status = completionRunStatus completion ∧ row.completedAt = some completedAt ∧
          row.errorCode = completionErrorCode completion then .duplicate
        else .completionConflict
    else if row.completionState ≠ .awaiting ∨ row.completionAttempt ≠ expectedAttempt then
      return .stale
    else if row.jobId ≠ jobId ∨ row.jobSha256 ≠ jobSha256 ∨ completion.jobId ≠ jobId ∨
        completion.runId ≠ runId then return .identityMismatch
    else if row.status ≠ .running ∧ (row.status ≠ completionRunStatus completion ∨
        row.completedAt ≠ some completedAt ∨ row.errorCode ≠ completionErrorCode completion) then
      return .completionConflict
    else
      let _ : ℕ ← Program.perform (S := IntakeSql) (.finishRun runId
        (completionRunStatus completion) completedAt (completionErrorCode completion))
      let _ : ℕ ← Program.perform (S := IntakeSql)
        (.markApplied runId expectedAttempt hash completedAt)
      return .applied

def applyCompletion (runId : String) (expectedAttempt : ℤ) (jobId jobSha256 : String)
    (completion : ExecutionCompletion) (completedAt : Timestamp) :
    IntakeOperation LocalCompletionApplyResult :=
  match instant completedAt with
  | .error e => throw e
  | .ok _ => runInImmediateTransaction
      (applyOrRefuse P runId expectedAttempt jobId jobSha256 completion completedAt)

def markIntegrityBlocked (runId : String) (expectedAttempt : ℤ) (errorCode : String)
    (blockedAt : Timestamp) : IntakeOperation BlockResult :=
  match instant blockedAt with
  | .error e => throw e
  | .ok _ => do
    let updated : ℕ ← Operation.perform (S := IntakeSql)
      (.block runId expectedAttempt errorCode blockedAt)
    if updated = 1 then return .blocked
    else
      let row : Option LocalCompletionState ← Operation.perform (S := IntakeSql)
        (.selectState runId)
      return if row = some .integrityBlocked ∨ row = some .retryExhausted then .blocked else .stale

end LocalRunIntakeStore

/-- The arguments of `applyCompletion`. -/
structure CompletionInput where
  runId : String
  expectedAttempt : ℤ
  jobId : String
  jobSha256 : String
  completion : ExecutionCompletion
  completedAt : Timestamp

inductive IntakeRequest where
  | create (job : AcceptedExecutionJob) (createdAt : Timestamp)
  | beginOffer (runId : String) (expectedAttempt : ℤ) (startedAt : Timestamp)
  | markOffered (runId : String) (expectedAttempt : ℤ) (offeredAt : Timestamp)
  | markOfferOutcomeUnknown (runId : String) (expectedAttempt : ℤ) (failedAt : Timestamp)
      (errorCode : String)
  | quarantineInterruptedDispatches (quarantinedAt : Timestamp)
  | recordCompletionFailure (runId : String) (expectedAttempt : ℤ) (errorCode : String)
      (failedAt : Timestamp)
  | applyCompletion (input : CompletionInput)
  | markIntegrityBlocked (runId : String) (expectedAttempt : ℤ) (errorCode : String)
      (blockedAt : Timestamp)

inductive IntakeAnswer where
  | created
  | begun (changed : Bool)
  | finished (changed : Bool)
  | quarantined (count : ℕ)
  | retry (result : RetryResult)
  | apply (result : LocalCompletionApplyResult)
  | block (result : BlockResult)
  deriving DecidableEq

open LocalRunIntakeStore in
def IntakeRequest.operation (P : Platform) (policy : LocalCompletionRetryPolicy) :
    IntakeRequest → IntakeOperation IntakeAnswer
  | .create job createdAt => do
    let _ ← LocalRunIntakeStore.create P job createdAt
    return .created
  | .beginOffer runId expectedAttempt startedAt =>
    return .begun (← LocalRunIntakeStore.beginOffer runId expectedAttempt startedAt)
  | .markOffered runId expectedAttempt offeredAt =>
    return .finished (← LocalRunIntakeStore.markOffered runId expectedAttempt offeredAt)
  | .markOfferOutcomeUnknown runId expectedAttempt failedAt errorCode =>
    return .finished
      (← LocalRunIntakeStore.markOfferOutcomeUnknown runId expectedAttempt failedAt errorCode)
  | .quarantineInterruptedDispatches quarantinedAt =>
    return .quarantined (← LocalRunIntakeStore.quarantineInterruptedDispatches quarantinedAt)
  | .recordCompletionFailure runId expectedAttempt errorCode failedAt =>
    return .retry (← LocalRunIntakeStore.recordCompletionFailure policy runId expectedAttempt
      errorCode failedAt)
  | .applyCompletion q =>
    return .apply (← LocalRunIntakeStore.applyCompletion P q.runId q.expectedAttempt q.jobId
      q.jobSha256 q.completion q.completedAt)
  | .markIntegrityBlocked runId expectedAttempt errorCode blockedAt =>
    return .block (← LocalRunIntakeStore.markIntegrityBlocked runId expectedAttempt errorCode
      blockedAt)

end Qualigence.Sqlite
