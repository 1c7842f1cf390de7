import Qualigence.Skill.Postgres
import Qualigence.Skill.Prepared

/-! # Every interleaving of lifecycle commands

On both stores: the tables keep their invariant, they change only in the step in which a command
ends successfully, whose result is then stored under its key, and a command whose key is taken is
answered from what is stored.
-/

namespace Qualigence.Skill

open Foundation Protocol

section Replay

variable {service : SkillLifecycleService} {command : SkillLifecycleCommand} {db : SkillDb}
  {row : SkillLifecycleCommandRow}

/-- The search for a stored result finds it. -/
theorem readLifecycleReplay_run (hrow : db.commands.get command.idempotencyKey = some row)
    (hh : row.commandHash = skillLifecycleCommandHash service.platform command) :
    (readLifecycleReplay command.idempotencyKey
      (skillLifecycleCommandHash service.platform command)).run handleSkill db =
        (.ok (.replayed row.result), db) := by
  unfold readLifecycleReplay
  simp only [Program.bind_eq, Program.perform, Program.bind, Program.run, handleSkill, hrow]
  rw [if_neg (not_not.mpr hh)]
  rfl

theorem sqlite_replayed (hrow : db.commands.get command.idempotencyKey = some row)
    (hh : row.commandHash = skillLifecycleCommandHash service.platform command)
    (ha : command.abortedAtFirst = false) :
    (service.apply sqliteSkillStore command).exec handleSkill db = (.ok row.result, db) := by
  unfold SkillLifecycleService.apply SkillLifecycleService.throwIfAborted
  rw [ha]
  change Operation.exec handleSkill (.transaction (readLifecycleReplay _ _) _) db = _
  rw [Operation.exec, readLifecycleReplay_run hrow hh]
  rfl

theorem onPostgres_run {α : Type} (body : Program SkillSql LifecycleError α) (db : SkillDb) :
    (onPostgres body).run postgresDatabase.handle db = body.run handleSkill db := by
  induction body generalizing db with
  | pure a => rfl
  | throw e => rfl
  | call op next ih => exact ih _ _

theorem postgres_replayed (hrow : db.commands.get command.idempotencyKey = some row)
    (hh : row.commandHash = skillLifecycleCommandHash service.platform command)
    (ha : command.abortedAtFirst = false) :
    (service.apply postgresSkillStore command).run postgresDatabase.handle db =
      (.ok row.result, db) := by
  have hread : (postgresReplay command.idempotencyKey
      (skillLifecycleCommandHash service.platform command)).run postgresDatabase.handle db =
        (.ok (.replayed row.result), db) :=
    (onPostgres_run _ db).trans (readLifecycleReplay_run hrow hh)
  unfold SkillLifecycleService.apply SkillLifecycleService.throwIfAborted
  rw [ha]
  change ((postgresReplay _ _).bind _).run postgresDatabase.handle db = _
  rw [Program.run_bind, hread]
  rfl

end Replay

/-! ## The two stores -/

abbrev CommandEvent := SessionEvent SkillLifecycleCommand LifecycleError

/-- The shared connection after a list of events. -/
def sqliteSession (service : SkillLifecycleService) (refused : LifecycleError) (db : SkillDb)
    (events : List CommandEvent) :
    Session SkillSql LifecycleError ProcedureSkillVersion SkillLifecycleCommand SkillDb :=
  (Session.initial db).run skillDatabase refused (service.apply sqliteSkillStore) events

/-- The transactions after a list of events. -/
def postgresSession (service : SkillLifecycleService) (failed : LifecycleError) (db : SkillDb)
    (events : List CommandEvent) :
    LockingSession PostgresSql LifecycleError ProcedureSkillVersion SkillLifecycleCommand SkillDb
      SkillLock :=
  (LockingSession.initial db).run postgresDatabase failed (service.apply postgresSkillStore) events

/-- Task `i` has ended with a result. -/
def SqliteEnded (w : Session SkillSql LifecycleError ProcedureSkillVersion SkillLifecycleCommand
    SkillDb) (i : ℕ) (command : SkillLifecycleCommand)
    (r : Except LifecycleError ProcedureSkillVersion) : Prop :=
  w.tasks i = some (command, .outside (.done r))

def PostgresEnded (w : LockingSession PostgresSql LifecycleError ProcedureSkillVersion
    SkillLifecycleCommand SkillDb SkillLock) (i : ℕ) (command : SkillLifecycleCommand)
    (r : Except LifecycleError ProcedureSkillVersion) : Prop :=
  w.transactions i = some (command, .ended r)

theorem lawful_sqliteSession {service : SkillLifecycleService} {db : SkillDb}
    (h : Lawful service db) (refused : LifecycleError) (events : List CommandEvent) :
    (sqliteSession service refused db events).Lawful skillDatabase (skillContract service)
      (Change service) (Outcome service) :=
  (Session.lawful_initial h).run (fun _ _ _ _ hl ho => ho.later hl)
    (fun _ db _ => apply_honors db) refused events

theorem lawful_postgresSession {service : SkillLifecycleService} {db : SkillDb}
    (h : Lawful service db) (failed : LifecycleError) (events : List CommandEvent) :
    (postgresSession service failed db events).Lawful postgresDatabase (skillContract service)
      (Change service) (Outcome service) :=
  (LockingSession.lawful_initial h).run (fun _ _ _ _ hl ho => ho.later hl)
    (fun _ _ _ => trivial) (fun _ _ hc => apply_lockHonors hc) failed events

/-- A step changes the tables only in that a command ends successfully. -/
theorem sqlite_step {service : SkillLifecycleService} {w : Session SkillSql LifecycleError
    ProcedureSkillVersion SkillLifecycleCommand SkillDb}
    (h : w.Lawful skillDatabase (skillContract service) (Change service) (Outcome service))
    (refused : LifecycleError) (e : CommandEvent) :
    let w' := w.step skillDatabase refused (service.apply sqliteSkillStore) e
    w'.committed = w.committed ∨ ∃ i command result, ¬ SqliteEnded w i command (.ok result) ∧
      SqliteEnded w' i command (.ok result) ∧ Change service command w.committed w'.committed := by
  rcases h.committed_step refused (service.apply sqliteSkillStore) e with
    hsame | ⟨i, fault, command, task, result, rfl, hi, hchange, hend⟩
  · exact Or.inl hsame
  · by_cases hended : SqliteEnded w i command (.ok result)
    · left
      change w.tasks i = _ at hended
      simp only [Session.step, Session.advance, hended]
    · exact Or.inr ⟨i, command, result, hended, hend, hchange⟩

theorem postgres_step {service : SkillLifecycleService} {w : LockingSession PostgresSql
    LifecycleError ProcedureSkillVersion SkillLifecycleCommand SkillDb SkillLock}
    (h : w.Lawful postgresDatabase (skillContract service) (Change service) (Outcome service))
    (failed : LifecycleError) (e : CommandEvent) :
    let w' := w.step postgresDatabase failed (service.apply postgresSkillStore) e
    w'.committed = w.committed ∨ ∃ i command result, ¬ PostgresEnded w i command (.ok result) ∧
      PostgresEnded w' i command (.ok result) ∧
        Change service command w.committed w'.committed := by
  rcases h.committed_step failed (service.apply postgresSkillStore) e with
    hsame | ⟨i, fault, command, t, result, rfl, hi, hchange, hend⟩
  · exact Or.inl hsame
  · by_cases hended : PostgresEnded w i command (.ok result)
    · left
      change w.transactions i = _ at hended
      simp only [LockingSession.step, LockingSession.advance, hended]
    · exact Or.inr ⟨i, command, result, hended, hend, hchange⟩

/-- Commands in every interleaving on both stores. The tables are lawful; the result of a command
that succeeded is stored under its key; a step changes them only by the writes of a decision that
stands, in that a command ends successfully whose key was free; and a command whose key is taken by
the same command is answered with the stored result. -/
theorem lifecycle_commands_lawful (service : SkillLifecycleService) {db : SkillDb}
    (h : Prepared db) (raised : LifecycleError) (events : List CommandEvent) (e : CommandEvent) :
    (let w := sqliteSession service raised db events
     let w' := sqliteSession service raised db (events ++ [e])
     Lawful service w.committed ∧
     (∀ i command r, SqliteEnded w i command r → Outcome service command w.committed r) ∧
     (w'.committed = w.committed ∨ ∃ i command result, ¬ SqliteEnded w i command (.ok result) ∧
       SqliteEnded w' i command (.ok result) ∧ Change service command w.committed w'.committed) ∧
     ∀ command row, w.committed.commands.get command.idempotencyKey = some row →
       row.commandHash = skillLifecycleCommandHash service.platform command →
       command.abortedAtFirst = false →
       (service.apply sqliteSkillStore command).exec handleSkill w.committed =
         (.ok row.result, w.committed)) ∧
    (let w := postgresSession service raised db events
     let w' := postgresSession service raised db (events ++ [e])
     Lawful service w.committed ∧
     (∀ i command r, PostgresEnded w i command r → Outcome service command w.committed r) ∧
     (w'.committed = w.committed ∨ ∃ i command result, ¬ PostgresEnded w i command (.ok result) ∧
       PostgresEnded w' i command (.ok result) ∧ Change service command w.committed w'.committed) ∧
     ∀ command row, w.committed.commands.get command.idempotencyKey = some row →
       row.commandHash = skillLifecycleCommandHash service.platform command →
       command.abortedAtFirst = false →
       (service.apply postgresSkillStore command).run postgresDatabase.handle w.committed =
         (.ok row.result, w.committed)) := by
  have hl := h.fresh.lawful service
  constructor
  · intro w w'
    have hw := lawful_sqliteSession hl raised events
    have hw' : w' = w.step skillDatabase raised (service.apply sqliteSkillStore) e :=
      List.foldl_concat ..
    refine ⟨hw.inv, fun i command r hi => hw.honors i command _ hi, ?_,
      fun command row hrow hh ha => sqlite_replayed hrow hh ha⟩
    rw [hw']
    exact sqlite_step hw raised e
  · intro w w'
    have hw := lawful_postgresSession hl raised events
    have hw' : w' = w.step postgresDatabase raised (service.apply postgresSkillStore) e :=
      List.foldl_concat ..
    refine ⟨hw.inv, fun i command r hi => hw.ended i command r hi, ?_,
      fun command row hrow hh ha => postgres_replayed hrow hh ha⟩
    rw [hw']
    exact postgres_step hw raised e

def sampleService : SkillLifecycleService :=
  ⟨textPlatform, some (sampleSigner (sampleBundle 3 .verified))⟩

def sampleCommand (operation : SkillLifecycleOperation) (key : String) : SkillLifecycleCommand where
  operation := operation
  skillId := "skill"
  expectedVersion := 3
  idempotencyKey := key
  actor := ⟨"actor", "tenant", ["operator"]⟩
  occurredAt := "2026-08-01T00:00:02.000Z"
  abortedAtFirst := false
  abortedBeforeCommit := false

/-- A promotion and a deprecation of the same version that take turns. -/
def sampleEvents : List CommandEvent :=
  [.spawn 0 (sampleCommand (.promote ["final-state"]) "key-a"),
    .spawn 1 (sampleCommand (.«deprecate» "superseded") "key-b")] ++
  (List.range 20).flatMap fun _ => [.advance 0 none, .advance 1 none]

theorem sampleDb_commands_lawful :
    sampleDb.versions.get ("skill", 3) = some (sampleVersion 3 .verified) ∧
    Lawful sampleService (sqliteSession sampleService aborted sampleDb sampleEvents).committed ∧
    Lawful sampleService
      (postgresSession sampleService aborted sampleDb sampleEvents).committed := by
  have h := lifecycle_commands_lawful sampleService prepared_sampleDb aborted sampleEvents .restart
  exact ⟨rfl, h.1.1, h.2.1⟩

end Qualigence.Skill
