import Qualigence.Foundation.Ledger

/-! # Transactions of the SQLite runtime

All stores of a runtime share its one connection. `runInImmediateTransaction` sends
`BEGIN IMMEDIATE`, the statements of its body and `COMMIT` one after another, and between any two
of them an operation of another store may send a statement of its own.
-/

namespace Qualigence.Sqlite

open Foundation

inductive SqliteErrorCode where
  | databaseOpenFailed
  | databaseVersionTooNew
  | storageBusy
  | storageClosed
  | traceIntegrityViolation
  | sequenceGap
  | runTerminalConflict
  deriving DecidableEq

/-- What an operation fails with: an error of the driver, or a `SqliteRuntimeError`. -/
inductive SqliteFault where
  | driver (code message : String)
  | runtime (code : SqliteErrorCode) (message : String) (cause : Option SqliteFault)

def sqliteBusyCodes : List String := ["SQLITE_BUSY", "SQLITE_BUSY_TIMEOUT"]

def isSqliteBusyError : SqliteFault → Bool
  | .driver code _ => sqliteBusyCodes.contains code
  | .runtime _ _ _ => false

def mapBusyError (error : SqliteFault) : SqliteFault :=
  .runtime .storageBusy "SQLite reported the database as busy before the busy timeout elapsed"
    (some error)

/-- What `BEGIN IMMEDIATE` fails with while a transaction is open on the connection. -/
def nestedTransaction : SqliteFault :=
  .driver "SQLITE_ERROR" "cannot start a transaction within a transaction"

section Runtime

variable {S : Signature} {ι α β σ : Type}

def runInImmediateTransaction (body : Program S SqliteFault β) : Operation S SqliteFault β :=
  .tryCatch (.inTransaction body) fun error =>
    if isSqliteBusyError error then throw (mapBusyError error) else throw error

/-- Alone on the database, a transaction takes effect as a whole or not at all. -/
theorem exec_runInImmediateTransaction (h : Handler S SqliteFault σ)
    (body : Program S SqliteFault β) (s : σ) :
    (runInImmediateTransaction body).exec h s = match body.run h s with
      | (.ok b, t) => (.ok b, t)
      | (.error e, _) => (.error (if isSqliteBusyError e then mapBusyError e else e), s) := by
  simp only [runInImmediateTransaction, Operation.inTransaction, Operation.tryCatch,
    Operation.exec]
  cases body.run h s with
  | mk r t =>
    cases r with
    | ok b => rfl
    | error e =>
      dsimp only
      split <;> rfl

variable (D : Database S SqliteFault σ) (isWrite : S.Op → Bool)
  (prog : ι → Operation S SqliteFault α)

/-- One event of the operations that share a connection. -/
def step : LedgerSession S SqliteFault α ι σ → SessionEvent ι SqliteFault →
    LedgerSession S SqliteFault α ι σ :=
  LedgerSession.step D nestedTransaction prog

/-- The connection of a runtime that was opened on a database, after a list of events. -/
def after (database : σ) (events : List (SessionEvent ι SqliteFault)) :
    LedgerSession S SqliteFault α ι σ :=
  LedgerSession.run D nestedTransaction prog (.initial database) events

end Runtime

end Qualigence.Sqlite
