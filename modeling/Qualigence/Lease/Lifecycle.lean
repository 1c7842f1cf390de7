import Mathlib.Control.Traversable.Instances
import Qualigence.Lease.Store

/-! # The lifecycle of a run in the store

A lease call changes at most one run, and a run goes through few states: it is granted
once, its lease is renewed while it is open, and it ends lost or completed. `RunStep`
says everything one call can do to one run; the invariants of the store and the
guarantees of its users are derived from it.
-/

namespace Qualigence.Lease

open Foundation Protocol RunnerControlStore

variable {τ : Type}

/-- A call that changes leases or completions. -/
inductive LeaseCall where
  | grantLease (input : PersistedExecutionLease)
  | renewLease (input : RenewLeaseInput)
  | completeLease (input : CompleteLeaseInput)
  | markLeaseLost (runId : String) (lostAt : Timestamp)

/-- What the store holds about one run. -/
structure RunView (τ : Type) where
  lease : Option (LeaseRow τ)
  completion : Option (CompletionRow τ)

/-- Everything a call in a scope can do to the run stored under the key `k`. -/
inductive RunStep (scope : τ) (k : τ × String) : LeaseCall → RunView τ → RunView τ → Prop
  | same {call : LeaseCall} {v : RunView τ} : RunStep scope k call v v
  | granted {input : PersistedExecutionLease} {c : Option (CompletionRow τ)}
      (hk : k = (scope, input.job.runId)) :
      RunStep scope k (.grantLease input) ⟨none, c⟩ ⟨some (leaseValues scope input), c⟩
  | renewed {input : RenewLeaseInput} {row : LeaseRow τ} {c : Option (CompletionRow τ)}
      (hk : k = (scope, input.runId)) (ho : isOpen row) :
      RunStep scope k (.renewLease input) ⟨some row, c⟩
        ⟨some (row.setExpiresAt input.newExpiresAt), c⟩
  | completed {input : CompleteLeaseInput} {row : LeaseRow τ}
      (hk : k = (scope, input.runId)) (ho : isOpen row) (hj : row.jobId = input.jobId) :
      RunStep scope k (.completeLease input) ⟨some row, none⟩
        ⟨some (row.setCompletedAt input.checkedAt),
          some (completionValues scope input)⟩
  | lost {runId : String} {lostAt : Timestamp} {row : LeaseRow τ}
      {c : Option (CompletionRow τ)} (hk : k = (scope, runId)) (ho : isOpen row) :
      RunStep scope k (.markLeaseLost runId lostAt) ⟨some row, c⟩
        ⟨some (row.setLostAt lostAt), c⟩

theorem isOpen_iff {row : LeaseRow τ} :
    isOpen row ↔ row.lostAt = none ∧ row.completedAt = none := by
  simp [isOpen]

variable [DecidableEq τ]

/-- The run stored under a key. -/
def RunnerControlDb.run (db : RunnerControlDb τ) (k : τ × String) : RunView τ :=
  ⟨db.leases.get k, db.completions.get k⟩

section Live

variable {scope : τ} {input : LeaseBinding} {row : LeaseRow τ}

theorem constrainLiveLease_iff : constrainLiveLease scope input row ↔
    row.scope = scope ∧ row.runId = input.runId ∧ row.jobId = input.jobId ∧
      row.runnerId = input.owner.runnerId ∧ row.sessionId = input.owner.sessionId ∧
      row.leaseEpoch = input.leaseEpoch ∧ row.leaseTokenHash = input.leaseTokenHash ∧
      row.lostAt = none ∧ row.completedAt = none ∧ input.checkedAt < row.expiresAt := by
  simp only [constrainLiveLease, decide_eq_true_eq]

theorem key_of_live (h : constrainLiveLease scope input row) : row.key = (scope, input.runId) := by
  obtain ⟨hs, hr, -⟩ := constrainLiveLease_iff.mp h
  rw [LeaseRow.key, hs, hr]

theorem isOpen_of_live (h : constrainLiveLease scope input row) : isOpen row := by
  obtain ⟨-, -, -, -, -, -, -, hl, hc, -⟩ := constrainLiveLease_iff.mp h
  exact isOpen_iff.mpr ⟨hl, hc⟩

/-- An update that needs a live lease changes a row only when the presented run has one. -/
theorem live_row {db : RunnerControlDb τ}
    (h : db.leases.count (constrainLiveLease scope input) ≠ 0) :
    ∃ row, db.leases.get (scope, input.runId) = some row ∧ constrainLiveLease scope input row := by
  obtain ⟨row, hr, hl⟩ := List.countP_pos_iff.mp (Nat.pos_of_ne_zero h)
  exact ⟨row, Table.get_eq_some_iff.mpr ⟨hr, key_of_live hl⟩, hl⟩

end Live

/-! ## Reading a lease -/

omit [DecidableEq τ] in
/-- A lease is read as its row, with the job that is parsed from it. -/
theorem toLease_eq_ok {P : Platform} {row : LeaseRow τ} {record : PersistedExecutionLease}
    (h : toLease P row = .ok record) :
    parseJob P row.jobJson = .ok record.job ∧ record.owner = ⟨row.runnerId, row.sessionId⟩ ∧
      record.leaseEpoch = row.leaseEpoch ∧ record.leaseTokenHash = row.leaseTokenHash ∧
      record.expiresAt = row.expiresAt ∧ record.lostAt = row.lostAt ∧
      record.completedAt = row.completedAt ∧ record.recoveryOfRunId = row.recoveryOfRunId := by
  unfold toLease at h
  cases hj : parseJob P row.jobJson with
  | error e =>
    rw [hj] at h
    cases h
  | ok job =>
    rw [hj] at h
    cases h
    exact ⟨rfl, rfl, rfl, rfl, rfl, rfl, rfl, rfl⟩

theorem lease_eq_ok {P : Platform} {scope : τ} {runId : String} {db : RunnerControlDb τ}
    {record : PersistedExecutionLease} (h : lease P scope runId db = .ok (some record)) :
    ∃ row, db.leases.get (scope, runId) = some row ∧ toLease P row = .ok record := by
  unfold lease at h
  cases hg : db.leases.get (scope, runId) with
  | none =>
    rw [hg] at h
    cases h
  | some row =>
    rw [hg] at h
    refine ⟨row, rfl, ?_⟩
    cases ht : toLease P row with
    | error e =>
      simp only [Option.mapM, ht] at h
      cases h
    | ok r =>
      simp only [Option.mapM, ht] at h
      cases h
      rfl

/-! ## The calls -/

variable (P : Platform) (scope : τ) (db : RunnerControlDb τ) (k : τ × String)

theorem runStep_grantLease (input : PersistedExecutionLease) :
    RunStep scope k (.grantLease input) (db.run k) ((grantLease scope input db).2.run k) := by
  unfold grantLease
  cases hi : db.leases.insert (leaseValues scope input) with
  | none => exact .same
  | some leases =>
    simp only [RunnerControlDb.run, Table.get_of_insert hi]
    split
    · next hk =>
      have hn : db.leases.get k = none := hk ▸ Table.get_eq_none_of_insert hi
      rw [hn]
      exact .granted hk.symm
    · exact .same

theorem runStep_renewLease (input : RenewLeaseInput) :
    RunStep scope k (.renewLease input) (db.run k) ((renewLease P scope input db).2.run k) := by
  unfold renewLease
  split
  · exact .same
  · simp only [RunnerControlDb.run, Table.get_update]
    cases hg : db.leases.get k with
    | none => exact .same
    | some row =>
      simp only [Option.map_some]
      split
      · next hl =>
        exact .renewed (Table.key_of_get hg ▸ key_of_live hl) (isOpen_of_live hl)
      · exact .same

theorem runStep_markLeaseLost (runId : String) (lostAt : Timestamp) :
    RunStep scope k (.markLeaseLost runId lostAt) (db.run k)
      ((markLeaseLost scope runId lostAt db).2.run k) := by
  simp only [markLeaseLost, RunnerControlDb.run, Table.get_update]
  cases hg : db.leases.get k with
  | none => exact .same
  | some row =>
    simp only [Option.map_some, Bool.and_eq_true, decide_eq_true_eq]
    split
    · next hl => exact .lost (Table.key_of_get hg ▸ hl.1) hl.2
    · exact .same

theorem runStep_completeBound (input : CompleteLeaseInput) (record : LeaseRow τ) :
    RunStep scope k (.completeLease input) (db.run k)
      ((completeBound P scope input record db).2.run k) := by
  unfold completeBound
  split
  · exact .same
  · split
    · exact .same
    · simp only
      split
      · next hz =>
        rw [Table.update_of_count_eq_zero hz]
        exact .same
      · next hz =>
        split
        · next completions hi =>
          simp only [RunnerControlDb.run, Table.get_update, Table.get_of_insert hi]
          by_cases hk : (completionValues scope input).key = k
          · subst hk
            obtain ⟨row, hg, hl⟩ := live_row hz
            have hn : db.completions.get (completionValues scope input).key = none :=
              Table.get_eq_none_of_insert hi
            change db.leases.get (completionValues scope input).key = some row at hg
            simp only [if_true, hn, hg, Option.map_some, hl]
            obtain ⟨-, -, hj, -⟩ := constrainLiveLease_iff.mp hl
            exact .completed rfl (isOpen_of_live hl) hj
          · rw [if_neg hk]
            cases hg : db.leases.get k with
            | none => exact .same
            | some row =>
              have hl : ¬ constrainLiveLease scope input.toLeaseBinding row := fun hl =>
                hk ((key_of_live hl).symm.trans (Table.key_of_get hg))
              simp only [Option.map_some, hl]
              exact .same
        · exact .same

theorem runStep_completeLease (input : CompleteLeaseInput) :
    RunStep scope k (.completeLease input) (db.run k)
      ((completeLease P scope input db).2.run k) := by
  unfold completeLease
  split
  · exact .same
  · split
    · exact .same
    · split
      · exact runStep_completeBound P scope db k input _
      · exact .same

end Qualigence.Lease
