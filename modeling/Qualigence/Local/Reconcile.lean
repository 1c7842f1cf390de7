import Qualigence.Lease.Invariant
import Qualigence.Local.Coordinator
import Qualigence.Sqlite.IntakeStates

/-! # What reconciliation keeps

A reconciliation pass blocks a run only when the control store holds a completion that is not the
one of its job, and it counts an attempt only after a look for the completion came to nothing.
-/

namespace Qualigence.Local

open Foundation Protocol Sqlite
open Lease (RunnerControlDb RunnerCompletionRecord LeaseCall StoreError)

variable (P : Platform) (policy : LocalCompletionRetryPolicy)

/-! ## The completion of a run -/

namespace LocalWorld

/-- What the control store holds as the completion of a run. -/
def record (w : LocalWorld) (runId : String) : Except StoreError (Option RunnerCompletionRecord) :=
  Lease.SqliteRunnerControlStore.completionRecord P runId w.control

def Stored (w : LocalWorld) (runId : String) : Prop :=
  (w.control.completions.get ((), runId)).isSome

/-- The control store holds the completion of a job. -/
def Holds (w : LocalWorld) (runId jobId jobSha256 : String) : Prop :=
  ∃ record, w.record P runId = .ok (some record) ∧ record.jobId = jobId ∧
    record.jobSha256 = some jobSha256

/-- The control store holds a completion of the run that is not the one of the job. -/
def Mismatched (w : LocalWorld) (runId jobId jobSha256 : String) : Prop :=
  w.Stored runId ∧ ¬ w.Holds P runId jobId jobSha256

/-- The lease of a run is live. -/
def Live (w : LocalWorld) (runId : String) : Prop :=
  ∃ lease, w.control.leases.get ((), runId) = some lease ∧ lease.lostAt = none ∧
    lease.completedAt = none ∧ w.now < lease.expiresAt

end LocalWorld

variable {P policy} {w w' : LocalWorld} {runId jobId jobSha256 : String}

theorem stored_of_record {record : RunnerCompletionRecord}
    (h : w.record P runId = .ok (some record)) : w.Stored runId := by
  unfold LocalWorld.record Lease.SqliteRunnerControlStore.completionRecord
    Lease.RunnerControlStore.completionRecord at h
  split at h
  · next row lease hrow _ =>
    unfold LocalWorld.Stored
    rw [hrow]
    rfl
  · cases h

theorem stored_of_mismatch (h : w.record P runId = .error .completionIdentityMismatch) :
    w.Stored runId := by
  unfold LocalWorld.record Lease.SqliteRunnerControlStore.completionRecord
    Lease.RunnerControlStore.completionRecord at h
  split at h
  · next row lease hrow _ =>
    unfold LocalWorld.Stored
    rw [hrow]
    rfl
  · cases h

/-- The completion of a run stays what it is. -/
theorem record_of_evolves (hl : (w.control.run ((), runId)).Linked)
    (he : (w.control.run ((), runId)).Evolves (w'.control.run ((), runId)))
    (hs : w.Stored runId) : w'.Stored runId ∧ w'.record P runId = w.record P runId := by
  obtain ⟨row, hrow⟩ := Option.isSome_iff_exists.mp hs
  obtain ⟨lease, hlease, -, -⟩ := hl row hrow
  obtain ⟨lease', hlease', hcont⟩ := he.lease lease hlease
  have hrow' : w'.control.completions.get ((), runId) = some row := he.completion row hrow
  refine ⟨?_, ?_⟩
  · unfold LocalWorld.Stored
    rw [hrow']
    rfl
  · unfold LocalWorld.record Lease.SqliteRunnerControlStore.completionRecord
      Lease.RunnerControlStore.completionRecord
    have h₁ : w.control.leases.get ((), runId) = some lease := hlease
    have h₂ : w'.control.leases.get ((), runId) = some lease' := hlease'
    rw [hrow, hrow', h₁, h₂]
    dsimp only
    rw [hcont.jobJson]

/-! ## The invariant -/

/-- A call of `applyCompletion` with the completion that the control store holds. -/
structure FromRecord (q : CompletionInput) (record : RunnerCompletionRecord) : Prop where
  jobId : q.jobId = record.jobId
  jobSha256 : record.jobSha256 = some q.jobSha256
  completion : q.completion = record.completion
  completedAt : q.completedAt = record.completedAt

variable (P policy) in
structure LocalInv (w : LocalWorld) : Prop where
  valid : w.intake.Valid policy
  running : ∀ runId row, w.intake.intakes.get runId = some row →
    ∃ run, w.intake.runs.get runId = some run ∧
      (row.completionState ≠ .applied → run.status = .running)
  blocked : ∀ runId row, w.intake.intakes.get runId = some row →
    row.completionState = .integrityBlocked → w.Mismatched P runId row.jobId row.jobSha256
  counted : ∀ runId row, w.intake.intakes.get runId = some row →
    row.completionAttempt ≤ w.misses.count runId
  applied : ∀ runId row, w.intake.intakes.get runId = some row →
    row.completionState = .applied → ∃ record q, w.record P runId = .ok (some record) ∧
      FromRecord q record ∧ q.runId = runId ∧ row.jobId = q.jobId ∧ row.jobSha256 = q.jobSha256 ∧
      w.intake.HasResult P q
  linked : ∀ k, (w.control.run k).Linked

/-- How the world may move on between two operations of one pass. -/
structure LocalLater (P : Platform) (w w' : LocalWorld) : Prop where
  records : ∀ runId, w.Stored runId → w'.Stored runId ∧ w'.record P runId = w.record P runId
  rows : ∀ runId row, w.intake.intakes.get runId = some row → ∃ row',
    w'.intake.intakes.get runId = some row' ∧ row'.jobId = row.jobId ∧
      row'.jobSha256 = row.jobSha256
  misses : ∀ runId, w.misses.count runId ≤ w'.misses.count runId

/-- The intake of a run for a job. -/
def LocalWorld.Intakes (w : LocalWorld) (runId jobId jobSha256 : String) : Prop :=
  ∃ row, w.intake.intakes.get runId = some row ∧ row.jobId = jobId ∧ row.jobSha256 = jobSha256

/-- An operation that blocks a run, counts an attempt or applies a completion has a reason. -/
def LocalPermitted (P : Platform) (w : LocalWorld) : LocalOp → Prop
  | .intake (.markIntegrityBlocked runId _ _ _) => ∃ jobId jobSha256,
    w.Intakes runId jobId jobSha256 ∧ w.Mismatched P runId jobId jobSha256
  | .intake (.recordCompletionFailure runId expectedAttempt _ _) =>
    expectedAttempt + 1 ≤ w.misses.count runId
  | .intake (.applyCompletion q) => (∃ record, w.record P q.runId = .ok (some record) ∧
    FromRecord q record) ∧ w.Intakes q.runId q.jobId q.jobSha256
  | _ => True

theorem LocalLater.refl (w : LocalWorld) : LocalLater P w w :=
  ⟨fun _ h => ⟨h, rfl⟩, fun _ row h => ⟨row, h, rfl, rfl⟩, fun _ => le_rfl⟩

theorem LocalLater.trans {w'' : LocalWorld} (h : LocalLater P w w') (h' : LocalLater P w' w'') :
    LocalLater P w w'' where
  records runId hs := by
    obtain ⟨hs', he⟩ := h.records runId hs
    obtain ⟨hs'', he'⟩ := h'.records runId hs'
    exact ⟨hs'', he'.trans he⟩
  rows runId row hr := by
    obtain ⟨row', hr', hj, hsha⟩ := h.rows runId row hr
    obtain ⟨row'', hr'', hj', hsha'⟩ := h'.rows runId row' hr'
    exact ⟨row'', hr'', hj'.trans hj, hsha'.trans hsha⟩
  misses runId := (h.misses runId).trans (h'.misses runId)

theorem LocalLater.record (h : LocalLater P w w') {record : RunnerCompletionRecord}
    (hr : w.record P runId = .ok (some record)) : w'.record P runId = .ok (some record) :=
  (h.records runId (stored_of_record hr)).2.trans hr

theorem LocalLater.mismatched (h : LocalLater P w w')
    (hm : w.Mismatched P runId jobId jobSha256) : w'.Mismatched P runId jobId jobSha256 := by
  obtain ⟨hs, he⟩ := h.records runId hm.1
  refine ⟨hs, fun hh => hm.2 ?_⟩
  unfold LocalWorld.Holds at hh ⊢
  rwa [he] at hh

theorem LocalLater.intakes (h : LocalLater P w w') (hi : w.Intakes runId jobId jobSha256) :
    w'.Intakes runId jobId jobSha256 := by
  obtain ⟨row, hrow, rfl, rfl⟩ := hi
  obtain ⟨row', hrow', hj, hsha⟩ := h.rows runId row hrow
  exact ⟨row', hrow', hj, hsha⟩

theorem LocalLater.permitted (h : LocalLater P w w') {op : LocalOp}
    (hp : LocalPermitted P w op) : LocalPermitted P w' op := by
  unfold LocalPermitted at hp ⊢
  split
  · obtain ⟨jobId, jobSha256, hi, hm⟩ := hp
    exact ⟨jobId, jobSha256, h.intakes hi, h.mismatched hm⟩
  · next runId n _ _ =>
    have hle := h.misses runId
    dsimp only at hp
    omega
  · obtain ⟨⟨record, hr, hq⟩, hi⟩ := hp
    exact ⟨⟨record, h.record hr, hq⟩, h.intakes hi⟩
  · trivial

/-! ## What an operation keeps -/

/-- What an update of the intake store does to a row. -/
structure RowMoves (P : Platform) (w : LocalWorld) (r r' : LocalRunIntakeRow) : Prop where
  jobId : r'.jobId = r.jobId
  jobSha256 : r'.jobSha256 = r.jobSha256
  state : r'.completionState = r.completionState ∧ r'.completionAttempt = r.completionAttempt ∨
    r.completionState = .awaiting ∧
      (r'.completionState = .integrityBlocked ∧ r'.completionAttempt = r.completionAttempt ∧
          w.Mismatched P r.runId r.jobId r.jobSha256 ∨
        (r'.completionState = .awaiting ∨ r'.completionState = .retryExhausted) ∧
          r'.completionAttempt ≤ w.misses.count r.runId)
  result : r'.completionSha256 = r.completionSha256 ∧
    r'.completionAppliedAt = r.completionAppliedAt

theorem rowMoves_of_aside {r r' : LocalRunIntakeRow} (h : r.Aside r')
    (hj : r'.jobId = r.jobId) (hs : r'.jobSha256 = r.jobSha256)
    (hb : r'.completionState = .integrityBlocked → r.completionState = .awaiting →
      w.Mismatched P r.runId r.jobId r.jobSha256) : RowMoves P w r r' where
  jobId := hj
  jobSha256 := hs
  state := by
    rcases h.state with he | ⟨he, he'⟩
    · exact Or.inl ⟨he, h.attempt⟩
    · exact Or.inr ⟨he, Or.inl ⟨he', h.attempt, hb he' he⟩⟩
  result := ⟨h.sha256, h.appliedAt⟩

/-- A row is not applied by such an update. -/
theorem RowMoves.applied {r r' : LocalRunIntakeRow} (h : RowMoves P w r r')
    (ha : r'.completionState = .applied) : r.completionState = .applied := by
  rcases h.state with ⟨he, -⟩ | ⟨-, ⟨hb, -⟩ | ⟨hn | hn, -⟩⟩
  · exact he.symm.trans ha
  · cases hb.symm.trans ha
  · cases hn.symm.trans ha
  · cases hn.symm.trans ha

section Keeps

variable (hinv : LocalInv P policy w)
include hinv

theorem keeps_updateIntakes {p : LocalRunIntakeRow → Bool}
    {f : LocalRunIntakeRow → LocalRunIntakeRow} {hf : ∀ r, (f r).runId = r.runId}
    (hv : (w.intake.updateIntakes p f hf).2.Valid policy)
    (hm : ∀ runId r, w.intake.intakes.get runId = some r → p r → RowMoves P w r (f r)) :
    LocalInv P policy { w with intake := (w.intake.updateIntakes p f hf).2 } ∧
      LocalLater P w { w with intake := (w.intake.updateIntakes p f hf).2 } := by
  -- every row of the new table comes from a row of the old one
  have hrows : ∀ runId row', (w.intake.updateIntakes p f hf).2.intakes.get runId = some row' →
      ∃ row, w.intake.intakes.get runId = some row ∧ row.runId = runId ∧
        (row' = row ∨ RowMoves P w row row') := by
    intro runId row' hr
    rw [get_updateIntakes, Option.map_eq_some_iff] at hr
    obtain ⟨row, hrow, rfl⟩ := hr
    refine ⟨row, hrow, Table.key_of_get hrow, ?_⟩
    split
    · next h => exact Or.inr (hm runId row hrow h)
    · exact Or.inl rfl
  constructor
  · refine ⟨hv, fun runId row' hr => ?_, fun runId row' hr hb => ?_, fun runId row' hr => ?_,
      fun runId row' hr ha => ?_, hinv.linked⟩
    · obtain ⟨row, hrow, -, hmv⟩ := hrows runId row' hr
      obtain ⟨run, hrun, hst⟩ := hinv.running runId row hrow
      refine ⟨run, hrun, fun hne => hst fun ha => ?_⟩
      rcases hmv with rfl | hmv
      · exact hne ha
      · rcases hmv.state with ⟨he, -⟩ | ⟨he, -⟩
        · exact hne (he.trans ha)
        · cases he.symm.trans ha
    · obtain ⟨row, hrow, rfl, hmv⟩ := hrows runId row' hr
      rcases hmv with rfl | hmv
      · exact hinv.blocked _ _ hrow hb
      · rw [hmv.jobId, hmv.jobSha256]
        rcases hmv.state with ⟨he, -⟩ | ⟨-, ⟨-, -, hmis⟩ | ⟨hn | hn, -⟩⟩
        · exact hinv.blocked _ _ hrow (he.symm.trans hb)
        · exact hmis
        · cases hn.symm.trans hb
        · cases hn.symm.trans hb
    · obtain ⟨row, hrow, rfl, hmv⟩ := hrows runId row' hr
      have hle := hinv.counted _ _ hrow
      rcases hmv with rfl | hmv
      · exact hle
      · rcases hmv.state with ⟨-, he⟩ | ⟨-, ⟨-, he, -⟩ | ⟨-, he⟩⟩
        · exact he.trans_le hle
        · exact he.trans_le hle
        · exact he
    · obtain ⟨row, hrow, hrid, hmv⟩ := hrows runId row' hr
      have hrow_applied : row.completionState = .applied := by
        rcases hmv with rfl | hmv
        · exact ha
        · exact hmv.applied ha
      obtain ⟨record, q, hrec, hq, hqr, hj, hs, hres⟩ := hinv.applied runId row hrow hrow_applied
      obtain ⟨row₀, hrow₀, -, hsha, hat⟩ := hres.intake
      rw [hqr, hrow] at hrow₀
      cases hrow₀
      have hsame : row'.jobId = row.jobId ∧ row'.jobSha256 = row.jobSha256 ∧
          row'.completionSha256 = row.completionSha256 ∧
          row'.completionAppliedAt = row.completionAppliedAt := by
        rcases hmv with rfl | hmv
        · exact ⟨rfl, rfl, rfl, rfl⟩
        · exact ⟨hmv.jobId, hmv.jobSha256, hmv.result⟩
      obtain ⟨hj', hs', hsha', hat'⟩ := hsame
      refine ⟨record, q, hrec, hq, hqr, hj'.trans hj, hs'.trans hs, ?_, hres.run⟩
      rw [hqr]
      exact ⟨row', hr, ha, hsha'.trans hsha, hat'.trans hat⟩
  · refine ⟨fun _ h => ⟨h, rfl⟩, fun runId row hrow => ?_, fun _ => le_rfl⟩
    refine ⟨if p row then f row else row, ?_, ?_⟩
    · change (w.intake.updateIntakes p f hf).2.intakes.get runId = _
      rw [get_updateIntakes, hrow, Option.map_some]
    · split
      · next h => exact ⟨(hm runId row hrow h).jobId, (hm runId row hrow h).jobSha256⟩
      · exact ⟨rfl, rfl⟩

theorem keeps_same : LocalInv P policy w ∧ LocalLater P w w := ⟨hinv, .refl w⟩

theorem keeps_miss (runId : String) :
    LocalInv P policy (w.miss runId) ∧ LocalLater P w (w.miss runId) := by
  have hcount : ∀ runId', w.misses.count runId' ≤ (w.miss runId).misses.count runId' :=
    fun _ => (List.sublist_append_left _ _).count_le _
  refine ⟨⟨hinv.valid, hinv.running, hinv.blocked, fun runId' row hrow => ?_, hinv.applied,
    hinv.linked⟩, fun _ h => ⟨h, rfl⟩, fun _ row hrow => ⟨row, hrow, rfl, rfl⟩, hcount⟩
  have hle := hinv.counted runId' row hrow
  have := hcount runId'
  omega

theorem keeps_aside {p : LocalRunIntakeRow → Bool} {f : LocalRunIntakeRow → LocalRunIntakeRow}
    {hf : ∀ r, (f r).runId = r.runId} (ha : w.intake.Aside (w.intake.updateIntakes p f hf).2)
    (hj : ∀ r, (f r).jobId = r.jobId ∧ (f r).jobSha256 = r.jobSha256)
    (hb : ∀ runId r, w.intake.intakes.get runId = some r → p r →
      (f r).completionState = .integrityBlocked → r.completionState = .awaiting →
      w.Mismatched P r.runId r.jobId r.jobSha256) :
    LocalInv P policy { w with intake := (w.intake.updateIntakes p f hf).2 } ∧
      LocalLater P w { w with intake := (w.intake.updateIntakes p f hf).2 } := by
  refine keeps_updateIntakes hinv (ha.valid hinv.valid) fun runId r hr hpr => ?_
  obtain ⟨r', hr', haside⟩ := ha.present runId r hr
  rw [get_updateIntakes, hr, Option.map_some, if_pos hpr] at hr'
  cases hr'
  exact rowMoves_of_aside haside (hj r).1 (hj r).2 (hb runId r hr hpr)

/-- A change outside of the intake store that leaves the completions as they are. -/
theorem keeps_outside (hi : w'.intake = w.intake) (hm : w'.misses = w.misses)
    (hl : ∀ k, (w'.control.run k).Linked)
    (hrec : ∀ runId, w.Stored runId → w'.Stored runId ∧ w'.record P runId = w.record P runId) :
    LocalInv P policy w' ∧ LocalLater P w w' := by
  have hlater : LocalLater P w w' :=
    ⟨hrec, fun _ row hr => ⟨row, hi ▸ hr, rfl, rfl⟩, fun runId => hm ▸ le_rfl⟩
  refine ⟨⟨hi ▸ hinv.valid, hi ▸ hinv.running, ?_, ?_, ?_, hl⟩, hlater⟩
  · rw [hi]
    exact fun runId row hr hb => hlater.mismatched (hinv.blocked runId row hr hb)
  · rw [hi, hm]
    exact hinv.counted
  · rw [hi]
    intro runId row hr ha
    obtain ⟨record, q, hrec', hrest⟩ := hinv.applied runId row hr ha
    exact ⟨record, q, hlater.record hrec', hrest⟩

end Keeps

/-! ## The requests of the intake store -/

/-- The request performed alone on the database. -/
abbrev answered (P : Platform) (policy : LocalCompletionRetryPolicy) (request : IntakeRequest)
    (db : IntakeDb) : Except SqliteFault IntakeAnswer × IntakeDb :=
  (request.operation P policy).exec intakeHandler db

/-- A transaction has the effect of its body, or none. -/
theorem exec_transaction {β : Type} {body : IntakeProgram β} (f : β → IntakeAnswer)
    {db : IntakeDb} {Q : Except SqliteFault β → IntakeDb → Prop}
    (h : Program.Ends intakeHandler Q body db) :
    (∃ e, ((runInImmediateTransaction body).bind fun b => .done (.ok (f b))).exec intakeHandler
        db = (.error e, db)) ∨
      ∃ b t, Q (.ok b) t ∧ ((runInImmediateTransaction body).bind fun b => .done (.ok (f b))).exec
        intakeHandler db = (.ok (f b), t) := by
  unfold Program.Ends at h
  rw [Operation.exec_bind, exec_runInImmediateTransaction]
  cases hr : body.run intakeHandler db with
  | mk r t =>
    cases r with
    | error e => exact Or.inl ⟨_, rfl⟩
    | ok b =>
      rw [hr] at h
      exact Or.inr ⟨b, t, h, rfl⟩

variable (P policy) in
theorem answered_beginOffer (runId : String) (n : ℤ) (t : Timestamp) (db : IntakeDb) :
    (answered P policy (.beginOffer runId n t) db).2 = db ∨
      (answered P policy (.beginOffer runId n t) db).2 =
        (intakeHandler (.beginOffer runId n t) db).2 := by
  simp only [answered, IntakeRequest.operation, LocalRunIntakeStore.beginOffer]
  cases instant t with
  | error e => exact Or.inl rfl
  | ok ms => exact Or.inr rfl

variable (P policy) in
theorem answered_finishDispatch (request : IntakeRequest) {runId : String} {n : ℤ}
    {state : LocalDispatchState} {t : Timestamp} {errorCode : Option String}
    (h : request.operation P policy =
      (LocalRunIntakeStore.finishDispatch runId n state t errorCode).bind fun b =>
        .done (.ok (.finished b))) (db : IntakeDb) :
    (answered P policy request db).2 = db ∨
      (answered P policy request db).2 =
        (intakeHandler (.finishDispatch runId (n + 1) state t errorCode) db).2 := by
  unfold answered
  rw [h]
  unfold LocalRunIntakeStore.finishDispatch
  cases instant t with
  | error e => exact Or.inl rfl
  | ok ms => exact Or.inr rfl

variable (P policy) in
theorem answered_quarantine (t : Timestamp) (db : IntakeDb) :
    (answered P policy (.quarantineInterruptedDispatches t) db).2 = db ∨
      (answered P policy (.quarantineInterruptedDispatches t) db).2 =
        (intakeHandler (.quarantine t) db).2 := by
  simp only [answered, IntakeRequest.operation, LocalRunIntakeStore.quarantineInterruptedDispatches]
  cases instant t with
  | error e => exact Or.inl rfl
  | ok ms => exact Or.inr rfl

variable (P policy) in
theorem answered_markIntegrityBlocked (runId : String) (n : ℤ) (errorCode : String)
    (t : Timestamp) (db : IntakeDb) :
    (answered P policy (.markIntegrityBlocked runId n errorCode t) db).2 = db ∨
      (answered P policy (.markIntegrityBlocked runId n errorCode t) db).2 =
        (intakeHandler (.block runId n errorCode t) db).2 := by
  simp only [answered, IntakeRequest.operation, LocalRunIntakeStore.markIntegrityBlocked]
  cases instant t with
  | error e => exact Or.inl rfl
  | ok ms =>
    -- what follows the update only reads
    have hreads : ∀ (updated : ℕ) (db' : IntakeDb),
        (((if updated = 1 then pure .blocked else do
          let row : Option LocalCompletionState ← Operation.perform (S := IntakeSql)
            (.selectState runId)
          return if row = some .integrityBlocked ∨ row = some .retryExhausted then .blocked
            else .stale : IntakeOperation BlockResult).bind fun b => .done (.ok (IntakeAnswer.block b))).exec
            intakeHandler db').2 = db' := by
      intro updated db'
      split <;> rfl
    exact Or.inr (hreads _ _)

theorem ends_statement {db : IntakeDb} (op : IntakeStatement)
    {Q : Except SqliteFault (IntakeSql.Reply op) → IntakeDb → Prop}
    (hq : Q (intakeHandler op db).1 (intakeHandler op db).2) :
    Program.Ends intakeHandler Q (Program.perform (S := IntakeSql) op) db :=
  Program.ends_perform hq

/-- A failure leaves a run as it is, exhausts its retries or schedules the next one. -/
def Retried (policy : LocalCompletionRetryPolicy) (runId : String) (n : ℤ) (errorCode : String)
    (t : Timestamp) (db db' : IntakeDb) : Prop :=
  db' = db ∨
  (policy.maximumAttempts ≤ n + 1 ∧
    db' = (intakeHandler (.exhaust runId n (n + 1) t errorCode) db).2) ∨
  ∃ ms, instantMs t = some ms ∧ ¬ policy.maximumAttempts ≤ n + 1 ∧
    db' = (intakeHandler (.schedule runId n (n + 1) t
      (toISOString (ms + backoff policy (n + 1))) errorCode) db).2

theorem ends_retryOrExhaust {runId : String} {n : ℤ} {errorCode : String} {t : Timestamp}
    {ms : Int} (hms : instantMs t = some ms) (db : IntakeDb) :
    Program.Ends intakeHandler (fun _ db' => Retried policy runId n errorCode t db db')
      (LocalRunIntakeStore.retryOrExhaust policy runId n errorCode t ms) db := by
  unfold LocalRunIntakeStore.retryOrExhaust
  refine Program.ends_bind (fun _ s => s = db) (ends_statement (.selectCompletion runId) rfl) ?_
  rintro row _ rfl
  split
  · exact Or.inl rfl
  split
  · exact Or.inl rfl
  split
  · exact Or.inl rfl
  split
  · next hmax => exact Or.inr (Or.inl ⟨hmax, rfl⟩)
  next hmax =>
  split
  · exact Or.inl rfl
  next nextAttemptAt hnext =>
  obtain rfl := retryInstant_eq_ok hnext
  rw [retryDelay_eq]
  exact Or.inr (Or.inr ⟨ms, hms, hmax, rfl⟩)

variable (P policy) in
theorem answered_recordCompletionFailure (runId : String) (n : ℤ) (errorCode : String)
    (t : Timestamp) (db : IntakeDb) : Retried policy runId n errorCode t db
      (answered P policy (.recordCompletionFailure runId n errorCode t) db).2 := by
  simp only [answered, IntakeRequest.operation, LocalRunIntakeStore.recordCompletionFailure]
  cases hinst : instant t with
  | error e => exact Or.inl rfl
  | ok ms =>
    rcases exec_transaction IntakeAnswer.retry (ends_retryOrExhaust (instant_eq_ok hinst) db) with ⟨e, he⟩ | ⟨b, db', hq, he⟩
    · exact Or.inl (congrArg Prod.snd he)
    · rwa [← show _ = db' from congrArg Prod.snd he] at hq

/-! ## Applying the completion of a job -/

/-- A completion record names its run and its job in its completion too. -/
theorem identity_of_record {record : RunnerCompletionRecord}
    (h : w.record P runId = .ok (some record)) :
    record.completion.runId = runId ∧ record.completion.jobId = record.jobId := by
  unfold LocalWorld.record Lease.SqliteRunnerControlStore.completionRecord
    Lease.RunnerControlStore.completionRecord at h
  split at h
  · next row lease hrow _ =>
    obtain ⟨job, -, h⟩ := bind_eq_ok.mp h
    split at h
    · cases h
    · next hn =>
      cases h
      have hkey : row.key = ((), runId) := Table.key_of_get hrow
      simp only [not_or, not_not] at hn
      exact ⟨hn.2.2.1.trans (congrArg Prod.snd hkey), hn.2.2.2⟩
  · cases h

/-- The database in which the completion of a run that awaits it is applied. -/
def applyTo (q : CompletionInput) (sha256 : String) (db : IntakeDb) : IntakeDb :=
  (intakeHandler (.markApplied q.runId q.expectedAttempt sha256 q.completedAt)
    (intakeHandler (.finishRun q.runId (completionRunStatus q.completion) q.completedAt
      (completionErrorCode q.completion)) db).2).2

section Apply

variable {q : CompletionInput}

/-- What a call with the completion of the control store does, and how it answers. -/
def AppliesOrNot (P : Platform) (q : CompletionInput) (db : IntakeDb)
    (r : Except SqliteFault LocalCompletionApplyResult) (db' : IntakeDb) : Prop :=
  (db' = db ∧ ∀ b, r = .ok b → b = .duplicate ∨ b = .stale) ∨
  r = .ok .applied ∧ ∃ sha256 row, canonicalPayloadHash P q.completion.toValue = some sha256 ∧
    db.intakes.get q.runId = some row ∧ row.completionState = .awaiting ∧
    row.completionAttempt = q.expectedAttempt ∧ db' = applyTo q sha256 db

theorem ends_applyOrRefuse (hinv : LocalInv P policy w)
    (hp : LocalPermitted P w (.intake (.applyCompletion q))) :
    Program.Ends intakeHandler (AppliesOrNot P q w.intake)
      (LocalRunIntakeStore.applyOrRefuse P q.runId q.expectedAttempt q.jobId q.jobSha256
        q.completion q.completedAt) w.intake := by
  obtain ⟨⟨record, hrec, hq⟩, row, hrow, hj, hs⟩ := hp
  obtain ⟨run, hrun, hrunning⟩ := hinv.running _ _ hrow
  have htarget : w.intake.target q.runId = some ⟨row.jobId, row.jobSha256, row.completionState,
      row.completionAttempt, row.completionSha256, run.status, run.completedAt, run.errorCode⟩ := by
    simp only [IntakeDb.target, hrow, hrun]
    rfl
  unfold LocalRunIntakeStore.applyOrRefuse
  refine Program.ends_bind (fun target s => s = w.intake ∧ target = w.intake.target q.runId)
    (ends_statement (.selectTarget q.runId) ⟨rfl, rfl⟩) ?_
  rintro _ _ ⟨rfl, rfl⟩
  rw [htarget]
  cases hhash : canonicalPayloadHash P q.completion.toValue with
  | none =>
    refine Or.inl ⟨rfl, ?_⟩
    rintro _ ⟨⟩
  | some sha256 =>
  dsimp only
  split
  · next ha =>
    -- the completion that was applied is the one of the control store
    obtain ⟨record', q', hrec', hq', hqr, hj', hs', hres⟩ := hinv.applied _ _ hrow ha
    cases hrec.symm.trans hrec'
    have hcomp : q'.completion = q.completion := hq'.completion.trans hq.completion.symm
    have hat : q'.completedAt = q.completedAt := hq'.completedAt.trans hq.completedAt.symm
    obtain ⟨row', hrow', -, hsha, -⟩ := hres.intake
    obtain ⟨run', hrun', hstatus, hcat, herr⟩ := hres.run
    rw [hqr, hrow] at hrow'
    rw [hqr, hrun] at hrun'
    cases hrow'
    cases hrun'
    rw [hcomp] at hsha hstatus herr
    rw [hat] at hcat
    refine Or.inl ⟨rfl, ?_⟩
    rintro _ ⟨⟩
    rw [if_pos ⟨hj, hs, hsha.trans hhash, hstatus, hcat, herr⟩]
    exact Or.inl rfl
  split
  · refine Or.inl ⟨rfl, ?_⟩
    rintro _ ⟨⟩
    exact Or.inr rfl
  next ha hwait =>
  obtain ⟨hwait, hatt⟩ := not_or.mp hwait
  split
  · next hne =>
    obtain ⟨hid, hjid⟩ := identity_of_record hrec
    rw [← hq.completion] at hid hjid
    rcases hne with hne | hne | hne | hne
    · exact absurd hj hne
    · exact absurd hs hne
    · exact absurd (hjid.trans hq.jobId.symm) hne
    · exact absurd hid hne
  split
  · next hne => exact absurd (hrunning ha) hne.1
  · exact Or.inr ⟨rfl, sha256, row, hhash, hrow, not_not.mp hwait, not_not.mp hatt, rfl⟩

theorem answered_applyCompletion (hinv : LocalInv P policy w)
    (hp : LocalPermitted P w (.intake (.applyCompletion q))) :
    let r := answered P policy (.applyCompletion q) w.intake
    (r.2 = w.intake ∧ ∀ a, r.1 = .ok a → a = .apply .duplicate ∨ a = .apply .stale) ∨
    r.1 = .ok (.apply .applied) ∧ ∃ sha256 row,
      canonicalPayloadHash P q.completion.toValue = some sha256 ∧
      w.intake.intakes.get q.runId = some row ∧ row.completionState = .awaiting ∧
      row.completionAttempt = q.expectedAttempt ∧ r.2 = applyTo q sha256 w.intake := by
  simp only [answered, IntakeRequest.operation, LocalRunIntakeStore.applyCompletion]
  cases instant q.completedAt with
  | error e =>
    refine Or.inl ⟨rfl, ?_⟩
    rintro _ ⟨⟩
  | ok ms =>
    rcases exec_transaction IntakeAnswer.apply (ends_applyOrRefuse hinv hp) with ⟨e, he⟩ | ⟨b, db', hq, he⟩
    · refine Or.inl ⟨congrArg Prod.snd he, fun a ha => ?_⟩
      cases (congrArg Prod.fst he).symm.trans ha
    · have hfst := congrArg Prod.fst he
      have hsnd := congrArg Prod.snd he
      rcases hq with ⟨hdb, hb⟩ | ⟨hb, sha256, row, hhash, hrow, hs, hatt, hdb⟩
      · refine Or.inl ⟨hsnd.trans hdb, fun a ha => ?_⟩
        cases hfst.symm.trans ha
        rcases hb b rfl with rfl | rfl
        · exact Or.inl rfl
        · exact Or.inr rfl
      · cases hb
        exact Or.inr ⟨hfst, sha256, row, hhash, hrow, hs, hatt, hsnd.trans hdb⟩

section KeepsApply

variable {sha256 : String} {row : LocalRunIntakeRow}

theorem get_applyTo (db : IntakeDb) (runId : String) :
    (applyTo q sha256 db).intakes.get runId = (db.intakes.get runId).map fun r =>
      if LocalRunIntakeRow.awaits q.runId q.expectedAttempt r then r.applied sha256 q.completedAt
      else r :=
  get_updateIntakes

/-- The row of a run with the result of its completion. -/
def finishedBy (q : CompletionInput) (r : ExecutionRunRow) : ExecutionRunRow :=
  { r with
    status := completionRunStatus q.completion
    completedAt := some q.completedAt
    errorCode := completionErrorCode q.completion }

theorem runId_finishedBy (r : ExecutionRunRow) : (finishedBy q r).runId = r.runId := rfl

theorem getRun_applyTo (db : IntakeDb) (runId : String) :
    (applyTo q sha256 db).runs.get runId = (db.runs.get runId).map fun r =>
      if r.runId = q.runId ∧ r.status = .running then finishedBy q r else r := by
  have hruns : (applyTo q sha256 db).runs =
    db.runs.update (fun r => r.runId = q.runId ∧ r.status = .running) (finishedBy q)
      runId_finishedBy := rfl
  rw [hruns, Table.get_update]
  simp only [decide_eq_true_eq]

theorem carries_applyTo {db : IntakeDb} (hne : q.runId ≠ runId) :
    db.Carries P (applyTo q sha256 db) runId :=
  IntakeDb.Carries.trans carries_finishRun (carries_markApplied hne)

theorem keeps_apply (hinv : LocalInv P policy w)
    (hp : LocalPermitted P w (.intake (.applyCompletion q)))
    (hhash : canonicalPayloadHash P q.completion.toValue = some sha256)
    (hrow : w.intake.intakes.get q.runId = some row) (hs : row.completionState = .awaiting)
    (hatt : row.completionAttempt = q.expectedAttempt) :
    LocalInv P policy { w with intake := applyTo q sha256 w.intake } ∧
      LocalLater P w { w with intake := applyTo q sha256 w.intake } := by
  have hawaits : LocalRunIntakeRow.awaits q.runId q.expectedAttempt row :=
    awaits_iff.mpr ⟨Table.key_of_get hrow, hs, hatt⟩
  -- a row of the new table is a row of the old one or the one that was applied
  have hrows : ∀ runId row', (applyTo q sha256 w.intake).intakes.get runId = some row' →
      (w.intake.intakes.get runId = some row' ∧
        ¬ LocalRunIntakeRow.awaits q.runId q.expectedAttempt row') ∨
      (runId = q.runId ∧ row' = row.applied sha256 q.completedAt) := by
    intro runId row' hr
    rw [get_applyTo, Option.map_eq_some_iff] at hr
    obtain ⟨row₀, hrow₀, rfl⟩ := hr
    split
    · next h =>
      have hid : runId = q.runId :=
        (Table.key_of_get hrow₀).symm.trans (awaits_iff.mp h).1
      subst hid
      cases hrow.symm.trans hrow₀
      exact Or.inr ⟨rfl, rfl⟩
    · next h => exact Or.inl ⟨hrow₀, h⟩
  have hne : ∀ runId row', w.intake.intakes.get runId = some row' →
      ¬ LocalRunIntakeRow.awaits q.runId q.expectedAttempt row' → q.runId ≠ runId := by
    rintro _ row' hr hna rfl
    cases hrow.symm.trans hr
    exact hna hawaits
  obtain ⟨⟨record, hrec, hq⟩, row₁, hrow₁, hj, hsha⟩ := hp
  cases hrow.symm.trans hrow₁
  constructor
  · refine ⟨?_, fun runId row' hr => ?_, fun runId row' hr hb => ?_, fun runId row' hr => ?_,
      fun runId row' hr ha => ?_, hinv.linked⟩
    · exact inside_markApplied.valid ((IntakeDb.inside_of_intakes rfl).valid hinv.valid)
    · rcases hrows runId row' hr with ⟨hr, hna⟩ | ⟨rfl, rfl⟩
      · obtain ⟨run, hrun, hst⟩ := hinv.running runId row' hr
        have hrid : run.runId = runId := Table.key_of_get hrun
        refine ⟨run, ?_, hst⟩
        change (applyTo q sha256 w.intake).runs.get runId = some run
        rw [getRun_applyTo, hrun, Option.map_some, if_neg]
        exact fun h => hne runId row' hr hna (h.1.symm.trans hrid)
      · obtain ⟨run, hrun, -⟩ := hinv.running _ _ hrow
        refine ⟨if run.runId = q.runId ∧ run.status = .running then finishedBy q run else run, ?_,
          fun h => absurd rfl h⟩
        change (applyTo q sha256 w.intake).runs.get q.runId = _
        rw [getRun_applyTo, hrun, Option.map_some]
    · rcases hrows runId row' hr with ⟨hr, -⟩ | ⟨rfl, rfl⟩
      · exact hinv.blocked runId row' hr hb
      · cases hb
    · rcases hrows runId row' hr with ⟨hr, -⟩ | ⟨rfl, rfl⟩
      · exact hinv.counted runId row' hr
      · have hle := hinv.counted q.runId row hrow
        exact hle
    · rcases hrows runId row' hr with ⟨hr, hna⟩ | ⟨rfl, rfl⟩
      · obtain ⟨record', q', hrec', hq', hqr, hj', hs', hres⟩ := hinv.applied runId row' hr ha
        exact ⟨record', q', hrec', hq', hqr, hj', hs',
          (carries_applyTo (hne runId row' hr hna)).result q' hqr hres⟩
      · refine ⟨record, q, hrec, hq, rfl, hj, hsha, ⟨row.applied sha256 q.completedAt, hr, rfl,
          hhash.symm, rfl⟩, ?_⟩
        obtain ⟨run, hrun, hrunning⟩ := hinv.running _ _ hrow
        have hst : run.status = .running := hrunning (by rw [hs]; decide)
        refine ⟨finishedBy q run, ?_, rfl, rfl, rfl⟩
        change (applyTo q sha256 w.intake).runs.get q.runId = _
        rw [getRun_applyTo, hrun, Option.map_some, if_pos ⟨Table.key_of_get hrun, hst⟩]
  · refine ⟨fun _ h => ⟨h, rfl⟩, fun runId r hr => ?_, fun _ => le_rfl⟩
    refine ⟨_, (get_applyTo w.intake runId).trans (by rw [hr, Option.map_some]), ?_⟩
    split <;> exact ⟨rfl, rfl⟩

end KeepsApply

end Apply

/-! ## A new run -/

/-- The rows of a new run are inserted, or none is. -/
def CreatesOrNot (policy : LocalCompletionRetryPolicy) (db db' : IntakeDb) : Prop :=
  db' = db ∨ ∃ run row runs intakes, db.runs.insert run = some runs ∧
    db.intakes.insert row = some intakes ∧ run.runId = row.runId ∧ run.status = .running ∧
    row.IsNew policy ∧ row.completionAttempt = 0 ∧ db' = ⟨runs, intakes⟩

theorem ends_create (hp : policy.Valid) (job : AcceptedExecutionJob) (createdAt : Timestamp)
    (db : IntakeDb) : Program.Ends intakeHandler
      (fun r db' => (∃ e, r = .error e) ∨ CreatesOrNot policy db db') (do
        let _ : Unit ← Program.perform (S := IntakeSql)
          (.insertRun (LocalRunIntakeStore.newRun job createdAt))
        match canonicalPayloadHash P job.toValue with
        | none => .throw (raised "TypeError" "data argument must be a string")
        | some jobSha256 =>
          Program.perform (S := IntakeSql)
            (.insertIntake (LocalRunIntakeStore.newIntake job jobSha256 createdAt))) db := by
  refine Program.ends_bind (fun _ s => ∃ runs,
    db.runs.insert (LocalRunIntakeStore.newRun job createdAt) = some runs ∧ s = { db with runs })
    (ends_statement (.insertRun (LocalRunIntakeStore.newRun job createdAt)) ?_) ?_
  · simp only [intakeHandler, IntakeDb.insertRun]
    cases hins : db.runs.insert (LocalRunIntakeStore.newRun job createdAt) with
    | none => exact Or.inl ⟨_, rfl⟩
    | some runs => exact ⟨runs, rfl, rfl⟩
  rintro _ _ ⟨runs, hruns, rfl⟩
  cases canonicalPayloadHash P job.toValue with
  | none => exact Or.inl ⟨_, rfl⟩
  | some sha256 =>
  refine ends_statement (.insertIntake (LocalRunIntakeStore.newIntake job sha256 createdAt)) ?_
  simp only [intakeHandler, IntakeDb.insertIntake]
  split
  · exact Or.inl ⟨_, rfl⟩
  split
  · exact Or.inl ⟨_, rfl⟩
  split
  · exact Or.inl ⟨_, rfl⟩
  · next intakes hins =>
    exact Or.inr (Or.inr ⟨_, _, runs, intakes, hruns, hins, rfl, rfl,
      isNew_newIntake hp job sha256 createdAt, rfl, rfl⟩)

theorem answered_create (hp : policy.Valid) (job : AcceptedExecutionJob) (createdAt : Timestamp)
    (db : IntakeDb) :
    CreatesOrNot policy db (answered P policy (.create job createdAt) db).2 := by
  simp only [answered, IntakeRequest.operation, LocalRunIntakeStore.create]
  split
  · exact Or.inl rfl
  · exact Or.inl rfl
  · next job' _ _ =>
    rcases exec_transaction (fun _ => IntakeAnswer.created) (ends_create hp job' createdAt db) with
      ⟨e, he⟩ | ⟨b, db', ⟨_, ⟨⟩⟩ | hq, he⟩
    · exact Or.inl (congrArg Prod.snd he)
    · rw [← show _ = db' from congrArg Prod.snd he] at hq
      exact hq

theorem keeps_create (hinv : LocalInv P policy w) {db' : IntakeDb}
    (h : CreatesOrNot policy w.intake db') :
    LocalInv P policy { w with intake := db' } ∧ LocalLater P w { w with intake := db' } := by
  rcases h with rfl | ⟨run, row, runs, intakes, hruns, hins, hid, hst, hnew, hatt, rfl⟩
  · exact keeps_same hinv
  have hrows : ∀ runId row', intakes.get runId = some row' →
      w.intake.intakes.get runId = some row' ∨ runId = row.runId ∧ row' = row := by
    intro runId row' hr
    rw [Table.get_of_insert hins] at hr
    split at hr
    · next he =>
      cases hr
      exact Or.inr ⟨he.symm, rfl⟩
    · exact Or.inl hr
  constructor
  · refine ⟨fun runId row' hr => ?_, fun runId row' hr => ?_, fun runId row' hr hb => ?_,
      fun runId row' hr => ?_, fun runId row' hr ha => ?_, hinv.linked⟩
    · rcases hrows runId row' hr with hr | ⟨-, rfl⟩
      · exact hinv.valid runId row' hr
      · exact hnew.retries
    · rcases hrows runId row' hr with hr | ⟨rfl, rfl⟩
      · obtain ⟨run', hrun', hst'⟩ := hinv.running runId row' hr
        exact ⟨run', Table.get_of_insert_of_get hruns hrun', hst'⟩
      · refine ⟨run, ?_, fun _ => hst⟩
        change runs.get row'.runId = some run
        rw [Table.get_of_insert hruns, if_pos hid]
    · rcases hrows runId row' hr with hr | ⟨-, rfl⟩
      · exact hinv.blocked runId row' hr hb
      · cases hnew.awaiting.symm.trans hb
    · rcases hrows runId row' hr with hr | ⟨-, rfl⟩
      · exact hinv.counted runId row' hr
      · rw [hatt]
        exact Int.natCast_nonneg _
    · rcases hrows runId row' hr with hr | ⟨-, rfl⟩
      · obtain ⟨record, q, hrec, hq, hqr, hj, hs, hres⟩ := hinv.applied runId row' hr ha
        obtain ⟨r, hrow, hrest⟩ := hres.intake
        obtain ⟨run', hrun', hrest'⟩ := hres.run
        exact ⟨record, q, hrec, hq, hqr, hj, hs,
          ⟨r, Table.get_of_insert_of_get hins hrow, hrest⟩,
          run', Table.get_of_insert_of_get hruns hrun', hrest'⟩
      · cases hnew.awaiting.symm.trans ha
  · exact ⟨fun _ h => ⟨h, rfl⟩,
      fun _ r hr => ⟨r, Table.get_of_insert_of_get hins hr, rfl, rfl⟩, fun _ => le_rfl⟩

/-! ## The discipline of the passes -/

theorem keeps_intake (hpol : policy.Valid) (hinv : LocalInv P policy w) (request : IntakeRequest)
    (hp : LocalPermitted P w (.intake request)) :
    LocalInv P policy { w with intake := (answered P policy request w.intake).2 } ∧
      LocalLater P w { w with intake := (answered P policy request w.intake).2 } := by
  cases request with
  | create job createdAt => exact keeps_create hinv (answered_create hpol job createdAt w.intake)
  | beginOffer runId n t =>
    rcases answered_beginOffer P policy runId n t w.intake with h | h <;> rw [h]
    · exact keeps_same hinv
    · refine keeps_aside hinv (aside_beginOffer _ _ _ _) (fun _ => ⟨rfl, rfl⟩) ?_
      intro _ r _ _ hb hs
      cases hs.symm.trans hb
  | markOffered runId n t =>
    rcases answered_finishDispatch P policy (.markOffered runId n t) rfl w.intake with h | h <;> rw [h]
    · exact keeps_same hinv
    · refine keeps_aside hinv (aside_finishDispatch _ _ _ _ _ nofun) (fun _ => ⟨rfl, rfl⟩) ?_
      intro _ r _ _ hb hs
      cases hs.symm.trans hb
  | markOfferOutcomeUnknown runId n t errorCode =>
    rcases answered_finishDispatch P policy
      (.markOfferOutcomeUnknown runId n t errorCode) rfl w.intake with h | h <;> rw [h]
    · exact keeps_same hinv
    · refine keeps_aside hinv (aside_finishDispatch _ _ _ _ _ nofun) (fun _ => ⟨rfl, rfl⟩) ?_
      intro _ r _ _ hb hs
      cases hs.symm.trans hb
  | quarantineInterruptedDispatches t =>
    rcases answered_quarantine P policy t w.intake with h | h <;> rw [h]
    · exact keeps_same hinv
    · refine keeps_aside hinv (aside_quarantine _ _) (fun _ => ⟨rfl, rfl⟩) ?_
      intro _ r _ _ hb hs
      cases hs.symm.trans hb
  | recordCompletionFailure runId n errorCode t =>
    -- the attempt that is counted is one of the looks that came to nothing
    have hcount : n + 1 ≤ w.misses.count runId := hp
    rcases answered_recordCompletionFailure P policy runId n errorCode t
      w.intake with h | ⟨hmax, h⟩ | ⟨ms, hms, hmax, h⟩ <;> rw [h]
    · exact keeps_same hinv
    · refine keeps_updateIntakes hinv ((inside_exhaust hmax).valid hinv.valid) ?_
      intro _ r _ hr
      obtain ⟨rfl, hs, -⟩ := awaits_iff.mp hr
      exact ⟨rfl, rfl, Or.inr ⟨hs, Or.inr ⟨Or.inr rfl, hcount⟩⟩, rfl, rfl⟩
    · refine keeps_updateIntakes hinv ((inside_schedule hms hmax).valid hinv.valid) ?_
      intro _ r _ hr
      obtain ⟨rfl, hs, -⟩ := awaits_iff.mp hr
      exact ⟨rfl, rfl, Or.inr ⟨hs, Or.inr ⟨Or.inl hs, hcount⟩⟩, rfl, rfl⟩
  | applyCompletion q =>
    rcases answered_applyCompletion hinv hp with
      ⟨h, -⟩ | ⟨-, sha256, row, hhash, hrow, hs, hatt, h⟩ <;> rw [h]
    · exact keeps_same hinv
    · exact keeps_apply hinv hp hhash hrow hs hatt
  | markIntegrityBlocked runId n errorCode t =>
    rcases answered_markIntegrityBlocked P policy runId n errorCode t
      w.intake with h | h <;> rw [h]
    · exact keeps_same hinv
    · refine keeps_aside hinv (aside_block _ _ _ _ _) (fun _ => ⟨rfl, rfl⟩) ?_
      intro runId' r hr hpr _ _
      obtain ⟨rfl, -⟩ := awaits_iff.mp hpr
      obtain ⟨jobId, jobSha256, ⟨row, hrow, rfl, rfl⟩, hm⟩ := hp
      cases (Table.key_of_get hr : r.runId = runId')
      cases hr.symm.trans hrow
      exact hm

theorem keeps_then_miss (runId : String)
    (h : LocalInv P policy w' ∧ LocalLater P w w') :
    LocalInv P policy (w'.miss runId) ∧ LocalLater P w (w'.miss runId) := by
  obtain ⟨hinv, hlater⟩ := keeps_miss h.1 runId
  exact ⟨hinv, h.2.trans hlater⟩

/-- An error of a request about a completion is a miss. -/
def settled (request : IntakeRequest) (w : LocalWorld)
    (x : Except LocalError IntakeAnswer × IntakeDb) : Except LocalError IntakeAnswer × LocalWorld :=
  match x.1, missedBy request with
  | .error e, some runId => (.error e, { w with intake := x.2 }.miss runId)
  | answer, _ => (answer, { w with intake := x.2 })

theorem keeps_performIntake (hpol : policy.Valid) (hinv : LocalInv P policy w)
    (request : IntakeRequest) (hp : LocalPermitted P w (.intake request)) :
    LocalInv P policy (performIntake P policy request w).2 ∧
      LocalLater P w (performIntake P policy request w).2 := by
  have hkeep : ∀ x : Except LocalError IntakeAnswer × IntakeDb,
      LocalInv P policy { w with intake := x.2 } ∧ LocalLater P w { w with intake := x.2 } →
      LocalInv P policy (settled request w x).2 ∧ LocalLater P w (settled request w x).2 := by
    intro x hx
    unfold settled
    split
    · next runId _ _ => exact keeps_then_miss runId hx
    · exact hx
  refine hkeep (if w.storageFails then (.error storageBusy, w.intake) else _) ?_
  split
  · exact keeps_same hinv
  · exact keeps_intake hpol hinv request hp

theorem keeps_surroundings (hinv : LocalInv P policy w) (change : Surroundings) :
    LocalInv P policy (applySurroundings P change w) ∧
      LocalLater P w (applySurroundings P change w) := by
  cases change with
  | lease call =>
    have hcontrol : (applySurroundings P (.lease call) w).control = call.apply P () w.control := by
      cases call <;> rfl
    have hstep : ∀ k, Lease.RunStep () k call (w.control.run k)
        ((applySurroundings P (.lease call) w).control.run k) := by
      intro k
      rw [hcontrol]
      exact Lease.runStep_apply P () w.control k call
    exact keeps_outside hinv rfl rfl (fun k => (hstep k).linked (hinv.linked k))
      fun runId => record_of_evolves (hinv.linked _) (hstep _).evolves
  | _ => exact keeps_outside hinv rfl rfl hinv.linked fun _ h => ⟨h, rfl⟩

variable (P policy) in
def localDiscipline (hpol : policy.Valid) : Program.Discipline (localHandler P policy) where
  inv := LocalInv P policy
  later := LocalLater P
  permitted := LocalPermitted P
  later_refl := .refl
  later_trans _ _ _ := .trans
  permitted_later _ _ _ h := h.permitted
  keeps op w hp hinv := by
    cases op with
    | now => exact keeps_same hinv
    | pendingDispatches limit =>
      simp only [localHandler]
      split <;> exact keeps_same hinv
    | connection => exact keeps_same hinv
    | offer job capabilities => exact keeps_same hinv
    | intake request => exact keeps_performIntake hpol hinv request hp
    | pendingCompletions now limit =>
      simp only [localHandler]
      split <;> exact keeps_same hinv
    | completionRecord runId =>
      simp only [localHandler, performCompletionRecord]
      split
      · exact keeps_same hinv
      · exact keeps_miss hinv runId
    | hasCompletionBlockers =>
      simp only [localHandler]
      split <;> exact keeps_same hinv
    | surroundings change => exact keeps_surroundings hinv change

theorem localInv_initial (now : Timestamp) : LocalInv P policy (.initial now) := by
  have hnone : ∀ runId, (LocalWorld.initial now).intake.intakes.get runId = none :=
    fun _ => Table.get_empty
  refine ⟨fun runId _ h => ?_, fun runId _ h => ?_, fun runId _ h => ?_, fun runId _ h => ?_,
    fun runId _ h => ?_, fun k c h => ?_⟩
  iterate 5 cases (hnone runId).symm.trans h
  cases h

end Qualigence.Local
