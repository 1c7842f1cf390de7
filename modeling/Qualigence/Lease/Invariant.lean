import Qualigence.Lease.Lifecycle

/-! # Invariants of the lease tables

Over every sequence of lease calls, in both providers: a run has at most one lease, whose
grant never changes; a lease that is lost or completed stays as it is; a completion is
stored only together with the mark on its lease and never changes. Whether a lease can be
marked without a completion depends on the grants alone, because `grantLease` stores the
marks its caller hands it.
-/

namespace Qualigence.Lease

open Foundation Protocol RunnerControlStore

variable {τ : Type}

/-! ## One step -/

/-- A later row of the same lease: the grant is the same, and a row that is no longer open
did not change at all. -/
structure LeaseRow.Continues (row row' : LeaseRow τ) : Prop where
  scope : row'.scope = row.scope
  runId : row'.runId = row.runId
  jobId : row'.jobId = row.jobId
  runnerId : row'.runnerId = row.runnerId
  sessionId : row'.sessionId = row.sessionId
  leaseEpoch : row'.leaseEpoch = row.leaseEpoch
  jobJson : row'.jobJson = row.jobJson
  leaseTokenHash : row'.leaseTokenHash = row.leaseTokenHash
  closed : ¬ isOpen row → row' = row

namespace LeaseRow.Continues

variable {row row' row'' : LeaseRow τ} {t : Timestamp}

theorem refl (row : LeaseRow τ) : row.Continues row :=
  ⟨rfl, rfl, rfl, rfl, rfl, rfl, rfl, rfl, fun _ => rfl⟩

theorem trans (h : row.Continues row') (h' : row'.Continues row'') : row.Continues row'' where
  scope := h'.scope.trans h.scope
  runId := h'.runId.trans h.runId
  jobId := h'.jobId.trans h.jobId
  runnerId := h'.runnerId.trans h.runnerId
  sessionId := h'.sessionId.trans h.sessionId
  leaseEpoch := h'.leaseEpoch.trans h.leaseEpoch
  jobJson := h'.jobJson.trans h.jobJson
  leaseTokenHash := h'.leaseTokenHash.trans h.leaseTokenHash
  closed := by
    intro hc
    have he := h.closed hc
    subst he
    exact h'.closed hc

theorem setExpiresAt (ho : isOpen row) : row.Continues (row.setExpiresAt t) :=
  ⟨rfl, rfl, rfl, rfl, rfl, rfl, rfl, rfl, absurd ho⟩

theorem setCompletedAt (ho : isOpen row) : row.Continues (row.setCompletedAt t) :=
  ⟨rfl, rfl, rfl, rfl, rfl, rfl, rfl, rfl, absurd ho⟩

theorem setLostAt (ho : isOpen row) : row.Continues (row.setLostAt t) :=
  ⟨rfl, rfl, rfl, rfl, rfl, rfl, rfl, rfl, absurd ho⟩

end LeaseRow.Continues

/-- How the store may move on about one run: its lease continues and its completion stays. -/
structure RunView.Evolves (v w : RunView τ) : Prop where
  lease : ∀ row, v.lease = some row → ∃ row', w.lease = some row' ∧ row.Continues row'
  completion : ∀ c, v.completion = some c → w.completion = some c

theorem RunView.Evolves.refl (v : RunView τ) : v.Evolves v :=
  ⟨fun row h => ⟨row, h, .refl row⟩, fun _ h => h⟩

theorem RunView.Evolves.trans {u v w : RunView τ} (h : u.Evolves v) (h' : v.Evolves w) :
    u.Evolves w := by
  refine ⟨fun row hrow => ?_, fun c hc => h'.completion c (h.completion c hc)⟩
  obtain ⟨row', hrow', hcont⟩ := h.lease row hrow
  obtain ⟨row'', hrow'', hcont'⟩ := h'.lease row' hrow'
  exact ⟨row'', hrow'', hcont.trans hcont'⟩

/-- A stored completion belongs to the lease that was marked with it. -/
def RunView.Linked (v : RunView τ) : Prop :=
  ∀ c, v.completion = some c →
    ∃ row, v.lease = some row ∧ row.completedAt.isSome ∧ c.jobId = row.jobId

/-- The lease is not marked both lost and completed. -/
def RunView.Exclusive (v : RunView τ) : Prop :=
  ∀ row, v.lease = some row → row.lostAt = none ∨ row.completedAt = none

/-- A lease that is marked completed has its completion. -/
def RunView.Settled (v : RunView τ) : Prop :=
  ∀ row, v.lease = some row → row.completedAt.isSome → v.completion.isSome

/-- The call does not grant the run `k` a lease that satisfies `p`. -/
def LeaseCall.GrantsNot (scope : τ) (k : τ × String) (p : PersistedExecutionLease → Prop) :
    LeaseCall → Prop
  | .grantLease input => k = (scope, input.job.runId) → ¬ p input
  | _ => True

namespace RunStep

variable {scope : τ} {k : τ × String} {call : LeaseCall} {v w : RunView τ}

theorem evolves (h : RunStep scope k call v w) : v.Evolves w := by
  cases h with
  | same => exact .refl v
  | granted hk => exact ⟨nofun, fun _ h => h⟩
  | renewed hk ho =>
    refine ⟨?_, fun _ h => h⟩
    rintro row ⟨⟩
    exact ⟨_, rfl, .setExpiresAt ho⟩
  | completed hk ho hj =>
    refine ⟨?_, nofun⟩
    rintro row ⟨⟩
    exact ⟨_, rfl, .setCompletedAt ho⟩
  | lost hk ho =>
    refine ⟨?_, fun _ h => h⟩
    rintro row ⟨⟩
    exact ⟨_, rfl, .setLostAt ho⟩

theorem linked (h : RunStep scope k call v w) (hv : v.Linked) : w.Linked := by
  cases h with
  | same => exact hv
  | granted hk =>
    intro c hc
    obtain ⟨row, hrow, -⟩ := hv c hc
    cases hrow
  | renewed hk ho =>
    intro c hc
    obtain ⟨row, ⟨⟩, hrow⟩ := hv c hc
    exact ⟨_, rfl, hrow⟩
  | completed hk ho hj =>
    rintro c ⟨⟩
    exact ⟨_, rfl, rfl, hj.symm⟩
  | lost hk ho =>
    intro c hc
    obtain ⟨row, ⟨⟩, hrow⟩ := hv c hc
    exact ⟨_, rfl, hrow⟩

theorem exclusive (h : RunStep scope k call v w)
    (hg : call.GrantsNot scope k fun g => g.lostAt.isSome ∧ g.completedAt.isSome)
    (hv : v.Exclusive) : w.Exclusive := by
  cases h with
  | same => exact hv
  | @granted input c hk =>
    rintro row ⟨⟩
    have hn := hg hk
    cases hl : input.lostAt with
    | none => exact .inl hl
    | some t =>
      right
      cases hc : input.completedAt with
      | none => exact hc
      | some t' => exact absurd ⟨by simp [hl], by simp [hc]⟩ hn
  | renewed hk ho =>
    rintro row ⟨⟩
    exact .inl (isOpen_iff.mp ho).1
  | completed hk ho hj =>
    rintro row ⟨⟩
    exact .inl (isOpen_iff.mp ho).1
  | lost hk ho =>
    rintro row ⟨⟩
    exact .inr (isOpen_iff.mp ho).2

theorem settled (h : RunStep scope k call v w)
    (hg : call.GrantsNot scope k fun g => g.completedAt.isSome) (hv : v.Settled) :
    w.Settled := by
  cases h with
  | same => exact hv
  | granted hk =>
    rintro row ⟨⟩ hc
    exact absurd hc (hg hk)
  | renewed hk ho =>
    rintro row ⟨⟩ hc
    exact hv _ rfl hc
  | completed hk ho hj =>
    rintro row ⟨⟩ -
    rfl
  | lost hk ho =>
    rintro row ⟨⟩ hc
    exact hv _ rfl hc

end RunStep

/-! ## Sequences of calls -/

variable [DecidableEq τ] (P : Platform)

/-- The database after a call. -/
def LeaseCall.apply (scope : τ) (db : RunnerControlDb τ) : LeaseCall → RunnerControlDb τ
  | .grantLease input => (RunnerControlStore.grantLease scope input db).2
  | .renewLease input => (RunnerControlStore.renewLease P scope input db).2
  | .completeLease input => (RunnerControlStore.completeLease P scope input db).2
  | .markLeaseLost runId lostAt => (RunnerControlStore.markLeaseLost scope runId lostAt db).2

theorem runStep_apply (scope : τ) (db : RunnerControlDb τ) (k : τ × String) (call : LeaseCall) :
    RunStep scope k call (db.run k) ((call.apply P scope db).run k) := by
  cases call with
  | grantLease input => exact runStep_grantLease scope db k input
  | renewLease input => exact runStep_renewLease P scope db k input
  | completeLease input => exact runStep_completeLease P scope db k input
  | markLeaseLost runId lostAt => exact runStep_markLeaseLost scope db k runId lostAt

/-- The database after calls in their scopes. -/
def applyAll (calls : List (τ × LeaseCall)) (db : RunnerControlDb τ) : RunnerControlDb τ :=
  calls.foldl (fun db c => c.2.apply P c.1 db) db

/-- None of the calls grants the run `k` a lease that satisfies `p`. -/
def NoGrant (k : τ × String) (p : PersistedExecutionLease → Prop)
    (calls : List (τ × LeaseCall)) : Prop :=
  ∀ c ∈ calls, c.2.GrantsNot c.1 k p

variable {P} {db : RunnerControlDb τ} {k : τ × String} {calls : List (τ × LeaseCall)}

/-- What every step of every call keeps about a run, a sequence of calls keeps. -/
theorem run_applyAll {I : RunView τ → Prop} (ok : τ → LeaseCall → Prop)
    (hstep : ∀ scope call v w, ok scope call → RunStep scope k call v w → I v → I w)
    (hok : ∀ c ∈ calls, ok c.1 c.2) (h : I (db.run k)) : I ((applyAll P calls db).run k) := by
  refine List.foldlRecOn (motive := fun t : RunnerControlDb τ => I (t.run k)) calls _ h
    fun t ht c hc => ?_
  exact hstep c.1 c.2 _ _ (hok c hc) (runStep_apply P c.1 t k c.2) ht

theorem evolves_applyAll : (db.run k).Evolves ((applyAll P calls db).run k) :=
  run_applyAll (fun _ _ => True) (fun _ _ _ _ _ hs hv => hv.trans hs.evolves)
    (fun _ _ => trivial) (.refl _)

theorem linked_applyAll (h : (db.run k).Linked) : ((applyAll P calls db).run k).Linked :=
  run_applyAll (fun _ _ => True) (fun _ _ _ _ _ hs hv => hs.linked hv)
    (fun _ _ => trivial) h

theorem exclusive_applyAll
    (hg : NoGrant k (fun g => g.lostAt.isSome ∧ g.completedAt.isSome) calls)
    (h : (db.run k).Exclusive) : ((applyAll P calls db).run k).Exclusive :=
  run_applyAll _ (fun _ _ _ _ hok hs hv => hs.exclusive hok hv) hg h

theorem settled_applyAll (hg : NoGrant k (fun g => g.completedAt.isSome) calls)
    (h : (db.run k).Settled) : ((applyAll P calls db).run k).Settled :=
  run_applyAll _ (fun _ _ _ _ hok hs hv => hs.settled hok hv) hg h

/-- What holds of a run in a state `s` and a later state `t`, where `calls` led to `s`. -/
structure LeaseLaws (calls : List (τ × LeaseCall)) (s t : RunnerControlDb τ)
    (k : τ × String) : Prop where
  unique : s.leases.count (fun r => r.key = k) ≤ 1
  grant : ∀ row, s.leases.get k = some row → ∃ row', t.leases.get k = some row' ∧
    row'.jobId = row.jobId ∧ row'.runnerId = row.runnerId ∧ row'.sessionId = row.sessionId ∧
    row'.leaseEpoch = row.leaseEpoch ∧ row'.leaseTokenHash = row.leaseTokenHash
  exclusive : NoGrant k (fun g => g.lostAt.isSome ∧ g.completedAt.isSome) calls →
    ∀ row, s.leases.get k = some row → row.lostAt = none ∨ row.completedAt = none
  completed_of_completion : ∀ c, s.completions.get k = some c →
    ∃ row, s.leases.get k = some row ∧ row.completedAt.isSome
  completion_of_completed : NoGrant k (fun g => g.completedAt.isSome) calls →
    ∀ row, s.leases.get k = some row → row.completedAt.isSome → (s.completions.get k).isSome
  completion_kept : ∀ c, s.completions.get k = some c → t.completions.get k = some c
  expiry_kept : ∀ row, s.leases.get k = some row → row.lostAt.isSome ∨ row.completedAt.isSome →
    ∃ row', t.leases.get k = some row' ∧ row'.expiresAt = row.expiresAt

theorem leaseLaws (later : List (τ × LeaseCall)) :
    LeaseLaws calls (applyAll P calls .initial) (applyAll P (calls ++ later) .initial) k := by
  have ht : applyAll P (calls ++ later) .initial =
      applyAll P later (applyAll P calls .initial) := List.foldl_append
  rw [ht]
  have hev : ((applyAll P calls .initial).run k).Evolves
      ((applyAll P later (applyAll P calls .initial)).run k) := evolves_applyAll
  refine ⟨Table.count_key_le_one, fun row hrow => ?_, fun hg row hrow => ?_, fun c hc => ?_,
    fun hg row hrow hc => ?_, hev.completion, fun row hrow hclosed => ?_⟩
  · obtain ⟨row', hrow', hcont⟩ := hev.lease row hrow
    exact ⟨row', hrow', hcont.jobId, hcont.runnerId, hcont.sessionId, hcont.leaseEpoch,
      hcont.leaseTokenHash⟩
  · exact exclusive_applyAll hg (by rintro _ ⟨⟩) row hrow
  · obtain ⟨row, hrow, hcomp, -⟩ := linked_applyAll (P := P) (by rintro _ ⟨⟩) c hc
    exact ⟨row, hrow, hcomp⟩
  · exact settled_applyAll hg (by rintro _ ⟨⟩) row hrow hc
  · obtain ⟨row', hrow', hcont⟩ := hev.lease row hrow
    have hn : ¬ isOpen row := by
      rw [isOpen_iff]
      rintro ⟨hl, hc⟩
      simp [hl, hc] at hclosed
    exact ⟨row', hrow', by rw [hcont.closed hn]⟩

/-! ## The providers -/

/-- The SQLite database after a sequence of calls. -/
def SqliteRunnerControlStore.states (P : Platform) (calls : List LeaseCall) :
    RunnerControlDb Unit :=
  calls.foldl (fun db call => match call with
    | .grantLease input => (grantLease input db).2
    | .renewLease input => (renewLease P input db).2
    | .completeLease input => (completeLease P input db).2
    | .markLeaseLost runId lostAt => (markLeaseLost runId lostAt db).2) .initial

/-- The PostgreSQL database after a sequence of calls, each for its tenant. -/
def PostgresRunnerControlStore.states (P : Platform) (calls : List (String × LeaseCall)) :
    RunnerControlDb String :=
  calls.foldl (fun db c => match c.2 with
    | .grantLease input => (grantLease c.1 input db).2
    | .renewLease input => (renewLease P c.1 input db).2
    | .completeLease input => (completeLease P c.1 input db).2
    | .markLeaseLost runId lostAt => (markLeaseLost c.1 runId lostAt db).2) .initial

theorem SqliteRunnerControlStore.states_eq (P : Platform) (calls : List LeaseCall) :
    states P calls = applyAll P (calls.map fun call => ((), call)) .initial := by
  rw [applyAll, List.foldl_map]
  refine congrArg (fun f => calls.foldl f _) ?_
  funext db call
  cases call <;> rfl

theorem PostgresRunnerControlStore.states_eq (P : Platform) (calls : List (String × LeaseCall)) :
    states P calls = applyAll P calls .initial := by
  refine congrArg (fun f => calls.foldl f _) ?_
  funext db c
  rcases c with ⟨tenantId, call⟩
  cases call <;> rfl

/-- The lease tables of both providers over every sequence of calls: `calls` leads to a
state and `later` to any state after it. -/
theorem lease_tables_invariant (P : Platform) :
    (∀ (calls later : List LeaseCall) (runId : String),
      LeaseLaws (calls.map fun call => ((), call)) (SqliteRunnerControlStore.states P calls)
        (SqliteRunnerControlStore.states P (calls ++ later)) ((), runId)) ∧
    ∀ (calls later : List (String × LeaseCall)) (tenantId runId : String),
      LeaseLaws calls (PostgresRunnerControlStore.states P calls)
        (PostgresRunnerControlStore.states P (calls ++ later)) (tenantId, runId) := by
  constructor
  · intro calls later runId
    rw [SqliteRunnerControlStore.states_eq, SqliteRunnerControlStore.states_eq, List.map_append]
    exact leaseLaws _
  · intro calls later tenantId runId
    rw [PostgresRunnerControlStore.states_eq, PostgresRunnerControlStore.states_eq]
    exact leaseLaws _

/-- A grant of the run `run` with the marks its caller hands over. -/
def sampleGrant (lostAt completedAt : Option Timestamp) : PersistedExecutionLease where
  job := sampleJob "job" "run"
  owner := ⟨"runner", "session"⟩
  leaseEpoch := 1
  leaseTokenHash := samplePlatform.sha256 "token"
  expiresAt := "2026-01-01T00:00:30.000Z"
  lostAt := lostAt
  completedAt := completedAt
  recoveryOfRunId := none

/-- The completion of that run by its owner. -/
def sampleCompletion (checkedAt : Timestamp) : CompleteLeaseInput where
  runId := "run"
  jobId := "job"
  owner := ⟨"runner", "session"⟩
  leaseEpoch := 1
  leaseTokenHash := samplePlatform.sha256 "token"
  checkedAt := checkedAt
  completion := ⟨"job", "run", .passed⟩

/-- A run that is granted and completed in time. -/
theorem lease_tables_invariant_completed :
    ∃ row, (SqliteRunnerControlStore.states samplePlatform
        [.grantLease (sampleGrant none none),
          .completeLease (sampleCompletion "2026-01-01T00:00:10.000Z")]).leases.get
        ((), "run") = some row ∧ row.completedAt.isSome ∧
      ((SqliteRunnerControlStore.states samplePlatform
        [.grantLease (sampleGrant none none),
          .completeLease (sampleCompletion "2026-01-01T00:00:10.000Z")]).completions.get
        ((), "run")).isSome := by
  have hany : ((SqliteRunnerControlStore.states samplePlatform
      [.grantLease (sampleGrant none none),
        .completeLease (sampleCompletion "2026-01-01T00:00:10.000Z")]).leases.get
      ((), "run")).any (·.completedAt.isSome) = true := by decide
  obtain ⟨row, hrow, hcomp⟩ := Option.any_eq_true .. |>.mp hany
  have hlaws := (lease_tables_invariant samplePlatform).1
    [.grantLease (sampleGrant none none),
      .completeLease (sampleCompletion "2026-01-01T00:00:10.000Z")] [] "run"
  refine ⟨row, hrow, hcomp, hlaws.completion_of_completed ?_ row hrow hcomp⟩
  intro c hc
  simp only [List.map_cons, List.map_nil, List.mem_cons, List.not_mem_nil, or_false] at hc
  rcases hc with rfl | rfl
  · intro _
    simp [sampleGrant]
  · trivial

/-- One grant is enough to store a lease that is lost and completed and has no completion. -/
theorem grantLease_stores_marks :
    ∃ row, (SqliteRunnerControlStore.states samplePlatform [.grantLease (sampleGrant
        (some "2026-01-01T00:00:00.000Z") (some "2026-01-01T00:00:00.000Z"))]).leases.get
        ((), "run") = some row ∧
      row.lostAt = some "2026-01-01T00:00:00.000Z" ∧
      row.completedAt = some "2026-01-01T00:00:00.000Z" ∧
      ((SqliteRunnerControlStore.states samplePlatform [.grantLease (sampleGrant
        (some "2026-01-01T00:00:00.000Z") (some "2026-01-01T00:00:00.000Z"))]).completions.get
        ((), "run")).isNone :=
  ⟨leaseValues () (sampleGrant _ _), rfl, rfl, rfl, rfl⟩

end Qualigence.Lease
