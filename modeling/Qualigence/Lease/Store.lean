import Qualigence.Foundation.Table
import Qualigence.Protocol.Messages

/-! # The runner control store

Sessions, resume tokens, leases and completions as four keyed tables. Every method is one
transaction, so it is a function from the database to a reply, or an exception, and the
next database. The SQLite store keeps one scope; the PostgreSQL store keeps the rows of
every tenant side by side and each of its methods works in the scope of one tenant.
-/

namespace Qualigence.Lease

open Foundation Protocol

/-- The exceptions of the store: `RunnerControlStoreError` with its two codes, and a
violated constraint of the database. -/
inductive StoreError where
  | policyMissing
  | completionIdentityMismatch
  | constraintViolation (table : String)
  deriving DecidableEq

structure PersistedLeaseOwner where
  runnerId : String
  sessionId : String
  deriving DecidableEq

structure PersistedExecutionLease where
  job : AcceptedExecutionJob
  owner : PersistedLeaseOwner
  leaseEpoch : ℕ
  leaseTokenHash : String
  expiresAt : Timestamp
  lostAt : Option Timestamp
  completedAt : Option Timestamp
  recoveryOfRunId : Option String
  deriving DecidableEq

structure PersistedRunnerSession where
  sessionId : String
  runnerId : String
  certificateFingerprint : String
  capabilities : List String
  protocolMajor : ℕ
  createdAt : Timestamp
  deriving DecidableEq

structure ResumeTokenBinding where
  runnerId : String
  certificateFingerprint : String
  previousSessionId : String
  protocolMajor : ℕ
  deriving DecidableEq

structure ResumePresentedIdentity where
  runnerId : String
  certificateFingerprint : String
  protocolMajor : ℕ
  deriving DecidableEq

/-! ## Tables -/

variable (τ : Type)

structure SessionRow where
  scope : τ
  sessionId : String
  runnerId : String
  certificateFingerprint : String
  capabilities : List String
  protocolMajor : ℕ
  createdAt : Timestamp
  closedAt : Option Timestamp

structure TokenRow where
  scope : τ
  tokenHash : String
  binding : ResumeTokenBinding
  expiresAt : Timestamp
  consumedAt : Option Timestamp

/-- A row of `execution_leases`; the job is kept as the JSON object it was written as. -/
structure LeaseRow where
  scope : τ
  runId : String
  jobId : String
  runnerId : String
  sessionId : String
  leaseEpoch : ℕ
  jobJson : JsValue
  leaseTokenHash : String
  expiresAt : Timestamp
  lostAt : Option Timestamp
  completedAt : Option Timestamp
  recoveryOfRunId : Option String

structure CompletionRow where
  scope : τ
  runId : String
  jobId : String
  completionJson : ExecutionCompletion
  completedAt : Timestamp

variable {τ}

def SessionRow.key (r : SessionRow τ) : τ × String := (r.scope, r.sessionId)
def TokenRow.key (r : TokenRow τ) : τ × String := (r.scope, r.tokenHash)
def LeaseRow.key (r : LeaseRow τ) : τ × String := (r.scope, r.runId)
def CompletionRow.key (r : CompletionRow τ) : τ × String := (r.scope, r.runId)

/-! The updates of single columns; none of them touches a key. -/

def SessionRow.setClosedAt (t : Option Timestamp) (r : SessionRow τ) : SessionRow τ :=
  { r with closedAt := t }

def TokenRow.setConsumedAt (t : Timestamp) (r : TokenRow τ) : TokenRow τ :=
  { r with consumedAt := some t }

def LeaseRow.setExpiresAt (t : Timestamp) (r : LeaseRow τ) : LeaseRow τ :=
  { r with expiresAt := t }

def LeaseRow.setCompletedAt (t : Timestamp) (r : LeaseRow τ) : LeaseRow τ :=
  { r with completedAt := some t }

def LeaseRow.setLostAt (t : Timestamp) (r : LeaseRow τ) : LeaseRow τ :=
  { r with lostAt := some t }

theorem SessionRow.key_setClosedAt (t : Option Timestamp) (r : SessionRow τ) :
    (r.setClosedAt t).key = r.key := rfl

theorem TokenRow.key_setConsumedAt (t : Timestamp) (r : TokenRow τ) :
    (r.setConsumedAt t).key = r.key := rfl

theorem LeaseRow.key_setExpiresAt (t : Timestamp) (r : LeaseRow τ) :
    (r.setExpiresAt t).key = r.key := rfl

theorem LeaseRow.key_setCompletedAt (t : Timestamp) (r : LeaseRow τ) :
    (r.setCompletedAt t).key = r.key := rfl

theorem LeaseRow.key_setLostAt (t : Timestamp) (r : LeaseRow τ) :
    (r.setLostAt t).key = r.key := rfl

variable (τ) in
structure RunnerControlDb where
  sessions : Table (SessionRow τ) SessionRow.key
  tokens : Table (TokenRow τ) TokenRow.key
  leases : Table (LeaseRow τ) LeaseRow.key
  completions : Table (CompletionRow τ) CompletionRow.key

/-- The database right after the migration. -/
def RunnerControlDb.initial : RunnerControlDb τ := ⟨.empty, .empty, .empty, .empty⟩

/-- The reply to a method and the database it leaves. -/
abbrev StoreResult (τ α : Type) := Except StoreError α × RunnerControlDb τ

/-! ## Inputs -/

structure LeaseBinding where
  runId : String
  jobId : String
  owner : PersistedLeaseOwner
  leaseEpoch : ℕ
  leaseTokenHash : String
  checkedAt : Timestamp

structure RenewLeaseInput extends LeaseBinding where
  newExpiresAt : Timestamp

structure CompleteLeaseInput extends LeaseBinding where
  completion : ExecutionCompletion

inductive CompleteLeaseResult where
  | completed
  | duplicate
  | rejected
  | completionConflict (storedCompletion : ExecutionCompletion)

structure RotateResumeTokenInput where
  presentedTokenHash : String
  replacementTokenHash : String
  replacementExpiresAt : Timestamp
  presented : ResumePresentedIdentity
  rotatedAt : Timestamp

inductive RotateOutcome where
  | rotated
  | idempotentRetry
  deriving DecidableEq

structure RunnerCompletionRecord where
  runId : String
  jobId : String
  jobSha256 : Option String
  completion : ExecutionCompletion
  completedAt : Timestamp

/-! ## Conversions -/

def sessionValues (scope : τ) (record : PersistedRunnerSession) : SessionRow τ where
  scope := scope
  sessionId := record.sessionId
  runnerId := record.runnerId
  certificateFingerprint := record.certificateFingerprint
  capabilities := record.capabilities
  protocolMajor := record.protocolMajor
  createdAt := record.createdAt
  closedAt := none

/-- A saved session that exists takes the new identity and is open again. -/
def reopened (record : PersistedRunnerSession) (r : SessionRow τ) : SessionRow τ :=
  { r with
    runnerId := record.runnerId
    certificateFingerprint := record.certificateFingerprint
    capabilities := record.capabilities
    protocolMajor := record.protocolMajor
    closedAt := none }

theorem key_reopened (record : PersistedRunnerSession) (r : SessionRow τ) :
    (reopened record r).key = r.key := rfl

def leaseValues (scope : τ) (input : PersistedExecutionLease) : LeaseRow τ where
  scope := scope
  runId := input.job.runId
  jobId := input.job.jobId
  runnerId := input.owner.runnerId
  sessionId := input.owner.sessionId
  leaseEpoch := input.leaseEpoch
  jobJson := input.job.toValue
  leaseTokenHash := input.leaseTokenHash
  expiresAt := input.expiresAt
  lostAt := input.lostAt
  completedAt := input.completedAt
  recoveryOfRunId := input.recoveryOfRunId

/-- Any failure to parse a stored job is a `RunnerControlStoreError`. -/
def parseJob (P : Platform) (jobJson : JsValue) : Except StoreError AcceptedExecutionJob :=
  match parseExecutionJob P jobJson with
  | .ok job => .ok job
  | .error _ => .error .policyMissing

def toLease (P : Platform) (row : LeaseRow τ) : Except StoreError PersistedExecutionLease :=
  (parseJob P row.jobJson).map fun job =>
    { job, owner := ⟨row.runnerId, row.sessionId⟩, leaseEpoch := row.leaseEpoch,
      leaseTokenHash := row.leaseTokenHash, expiresAt := row.expiresAt, lostAt := row.lostAt,
      completedAt := row.completedAt, recoveryOfRunId := row.recoveryOfRunId }

/-- The presented lease is bound to the stored job, owner, epoch and token hash and was
never marked lost. Expiry and completion are left out. -/
def leaseBindingMatches (record : PersistedExecutionLease) (presented : LeaseBinding) : Bool :=
  record.lostAt.isNone && record.job.jobId == presented.jobId &&
    record.owner.runnerId == presented.owner.runnerId &&
    record.owner.sessionId == presented.owner.sessionId &&
    record.leaseEpoch == presented.leaseEpoch &&
    record.leaseTokenHash == presented.leaseTokenHash

/-- How a stored completion answers a presented one. -/
def observedCompletionResult (P : Platform) (stored : Option ExecutionCompletion)
    (presented : ExecutionCompletion) : Option CompleteLeaseResult :=
  stored.map fun s =>
    if canonicalPayloadHash P s.toValue = canonicalPayloadHash P presented.toValue then .duplicate
    else .completionConflict s

/-- The conditions of the updates that need a live lease. -/
def constrainLiveLease [DecidableEq τ] (scope : τ) (input : LeaseBinding) (row : LeaseRow τ) :
    Bool :=
  row.scope = scope ∧ row.runId = input.runId ∧ row.jobId = input.jobId ∧
    row.runnerId = input.owner.runnerId ∧ row.sessionId = input.owner.sessionId ∧
    row.leaseEpoch = input.leaseEpoch ∧ row.leaseTokenHash = input.leaseTokenHash ∧
    row.lostAt = none ∧ row.completedAt = none ∧ input.checkedAt < row.expiresAt

def completionValues (scope : τ) (input : CompleteLeaseInput) : CompletionRow τ where
  scope := scope
  runId := input.runId
  jobId := input.jobId
  completionJson := input.completion
  completedAt := input.checkedAt

/-! ## Methods -/

namespace RunnerControlStore

variable [DecidableEq τ] (P : Platform) (scope : τ)

def saveSession (record : PersistedRunnerSession) (db : RunnerControlDb τ) :
    StoreResult τ Unit :=
  match db.sessions.insert (sessionValues scope record) with
  | some sessions => (.ok (), { db with sessions })
  | none =>
    (.ok (), { db with
      sessions := db.sessions.update (fun r => r.key = (scope, record.sessionId))
        (reopened record) (key_reopened record) })

def closeSession (sessionId : String) (closedAt : Timestamp) (db : RunnerControlDb τ) :
    StoreResult τ Unit :=
  (.ok (), { db with
    sessions := db.sessions.update (fun r => r.key = (scope, sessionId))
      (·.setClosedAt (some closedAt)) (SessionRow.key_setClosedAt _) })

def issueResumeToken (tokenHash : String) (binding : ResumeTokenBinding) (expiresAt : Timestamp)
    (db : RunnerControlDb τ) : StoreResult τ Unit :=
  match db.tokens.insert ⟨scope, tokenHash, binding, expiresAt, none⟩ with
  | some tokens => (.ok (), { db with tokens })
  | none => (.error (.constraintViolation "runner_resume_tokens"), db)

/-- The presented identity is the one the token is bound to. -/
def presentedBy (presented : ResumePresentedIdentity) (row : TokenRow τ) : Bool :=
  row.binding.runnerId == presented.runnerId &&
    row.binding.certificateFingerprint == presented.certificateFingerprint &&
    row.binding.protocolMajor == presented.protocolMajor

def consumeToken (tokenHash : String) (p : TokenRow τ → Bool) (consumedAt : Timestamp)
    (tokens : Table (TokenRow τ) TokenRow.key) : Table (TokenRow τ) TokenRow.key :=
  tokens.update (fun r => r.key = (scope, tokenHash) && p r)
    (·.setConsumedAt consumedAt) (TokenRow.key_setConsumedAt _)

def consumeResumeToken (tokenHash : String) (presented : ResumePresentedIdentity)
    (consumedAt : Timestamp) (db : RunnerControlDb τ) :
    StoreResult τ (Option ResumeTokenBinding) :=
  let p : TokenRow τ → Bool := fun r =>
    r.consumedAt.isNone && presentedBy presented r && consumedAt < r.expiresAt
  (.ok (((db.tokens.get (scope, tokenHash)).filter p).map (·.binding)),
    { db with tokens := consumeToken scope tokenHash p consumedAt db.tokens })

def rotateResumeToken (input : RotateResumeTokenInput) (db : RunnerControlDb τ) :
    StoreResult τ (Option (RotateOutcome × ResumeTokenBinding)) :=
  match db.tokens.get (scope, input.presentedTokenHash) with
  | none => (.ok none, db)
  | some row =>
    if !presentedBy input.presented row then (.ok none, db)
    else if row.expiresAt ≤ input.rotatedAt then
      (.ok none, { db with
        tokens := consumeToken scope input.presentedTokenHash (fun _ => true) input.rotatedAt
          db.tokens })
    else if row.consumedAt.isSome then
      match db.tokens.get (scope, input.replacementTokenHash) with
      | none => (.ok none, db)
      | some _ => (.ok (some (.idempotentRetry, row.binding)), db)
    else
      let replacement : TokenRow τ :=
        ⟨scope, input.replacementTokenHash, row.binding, input.replacementExpiresAt, none⟩
      let tokens := (db.tokens.insert replacement).getD db.tokens
      let unconsumed : TokenRow τ → Bool := fun r => r.consumedAt.isNone
      let consumed := tokens.count fun r =>
        r.key = (scope, input.presentedTokenHash) && unconsumed r
      (.ok (some (if consumed = 0 then .idempotentRetry else .rotated, row.binding)),
        { db with
          tokens := consumeToken scope input.presentedTokenHash unconsumed input.rotatedAt
            tokens })

/-- Grant a lease, unless the run already has one. -/
def grantLease (input : PersistedExecutionLease) (db : RunnerControlDb τ) :
    StoreResult τ Bool :=
  match db.leases.insert (leaseValues scope input) with
  | some leases => (.ok true, { db with leases })
  | none => (.ok false, db)

def renewLease (input : RenewLeaseInput) (db : RunnerControlDb τ) : StoreResult τ Bool :=
  match (db.leases.get (scope, input.runId)).mapM fun row => parseJob P row.jobJson with
  | .error e => (.error e, db)
  | .ok _ =>
    let live := constrainLiveLease scope input.toLeaseBinding
    (.ok (0 < db.leases.count live), { db with
      leases := db.leases.update live (·.setExpiresAt input.newExpiresAt)
        (LeaseRow.key_setExpiresAt _) })

def readCompletion (runId : String) (db : RunnerControlDb τ) : Option ExecutionCompletion :=
  (db.completions.get (scope, runId)).map (·.completionJson)

/-- The part of `completeLease` after the binding was verified. -/
def completeBound (input : CompleteLeaseInput) (record : LeaseRow τ) (db : RunnerControlDb τ) :
    StoreResult τ CompleteLeaseResult :=
  match observedCompletionResult P (readCompletion scope input.runId db) input.completion with
  | some observed => (.ok observed, db)
  | none =>
    if record.expiresAt ≤ input.checkedAt ∨ record.completedAt.isSome then (.ok .rejected, db)
    else
      let live := constrainLiveLease scope input.toLeaseBinding
      let updated : RunnerControlDb τ := { db with
        leases := db.leases.update live (·.setCompletedAt input.checkedAt)
          (LeaseRow.key_setCompletedAt _) }
      if db.leases.count live = 0 then
        let raced := readCompletion scope input.runId updated
        (.ok ((observedCompletionResult P raced input.completion).getD .rejected), updated)
      else match updated.completions.insert (completionValues scope input) with
        | some completions => (.ok .completed, { updated with completions })
        -- the transaction is rolled back
        | none => (.error (.constraintViolation "execution_completions"), db)

def completeLease (input : CompleteLeaseInput) (db : RunnerControlDb τ) :
    StoreResult τ CompleteLeaseResult :=
  match db.leases.get (scope, input.runId) with
  | none => (.ok .rejected, db)
  | some record =>
    match toLease P record with
    | .error e => (.error e, db)
    | .ok lease =>
      if leaseBindingMatches lease input.toLeaseBinding then completeBound P scope input record db
      else (.ok .rejected, db)

/-- A lease that is neither lost nor completed. -/
def isOpen (row : LeaseRow τ) : Bool := row.lostAt.isNone && row.completedAt.isNone

def markLeaseLost (runId : String) (lostAt : Timestamp) (db : RunnerControlDb τ) :
    StoreResult τ Bool :=
  let p : LeaseRow τ → Bool := fun r => r.key = (scope, runId) && isOpen r
  (.ok (0 < db.leases.count p), { db with
    leases := db.leases.update p (·.setLostAt lostAt) (LeaseRow.key_setLostAt _) })

def lease (runId : String) (db : RunnerControlDb τ) :
    Except StoreError (Option PersistedExecutionLease) :=
  (db.leases.get (scope, runId)).mapM (toLease P)

def completion (runId : String) (db : RunnerControlDb τ) : Option ExecutionCompletion :=
  readCompletion scope runId db

/-- The stored completion of a run with its job, once their identities were compared. -/
def completionRecord (runId : String) (db : RunnerControlDb τ) :
    Except StoreError (Option RunnerCompletionRecord) :=
  match db.completions.get (scope, runId), db.leases.get (scope, runId) with
  | some row, some leaseRow => do
    let job ← parseJob P leaseRow.jobJson
    if job.runId ≠ row.runId ∨ job.jobId ≠ row.jobId ∨ row.completionJson.runId ≠ row.runId ∨
        row.completionJson.jobId ≠ row.jobId then
      .error .completionIdentityMismatch
    else
      .ok (some { runId := row.runId, jobId := row.jobId,
                  jobSha256 := canonicalPayloadHash P job.toValue,
                  completion := row.completionJson, completedAt := row.completedAt })
  | _, _ => .ok none

end RunnerControlStore

/-! ## The two providers -/

namespace SqliteRunnerControlStore

variable (P : Platform)

def saveSession := RunnerControlStore.saveSession ()
def closeSession := RunnerControlStore.closeSession ()
def issueResumeToken := RunnerControlStore.issueResumeToken ()
def consumeResumeToken := RunnerControlStore.consumeResumeToken ()
def rotateResumeToken := RunnerControlStore.rotateResumeToken ()
def grantLease := RunnerControlStore.grantLease ()
def renewLease := RunnerControlStore.renewLease P ()
def completeLease := RunnerControlStore.completeLease P ()
def markLeaseLost := RunnerControlStore.markLeaseLost ()
def lease := RunnerControlStore.lease P ()
def completion := RunnerControlStore.completion ()
def completionRecord := RunnerControlStore.completionRecord P ()

end SqliteRunnerControlStore

namespace PostgresRunnerControlStore

variable (P : Platform) (tenantId : String)

def saveSession := RunnerControlStore.saveSession tenantId
def closeSession := RunnerControlStore.closeSession tenantId
def issueResumeToken := RunnerControlStore.issueResumeToken tenantId
def consumeResumeToken := RunnerControlStore.consumeResumeToken tenantId
def rotateResumeToken := RunnerControlStore.rotateResumeToken tenantId
def grantLease := RunnerControlStore.grantLease tenantId
def renewLease := RunnerControlStore.renewLease P tenantId
def completeLease := RunnerControlStore.completeLease P tenantId
def markLeaseLost := RunnerControlStore.markLeaseLost tenantId
def lease := RunnerControlStore.lease P tenantId
def completion := RunnerControlStore.completion tenantId
def completionRecord := RunnerControlStore.completionRecord P tenantId

end PostgresRunnerControlStore

end Qualigence.Lease
