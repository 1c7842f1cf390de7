import Mathlib.Algebra.Group.Nat.Defs
import Qualigence.Foundation.Interference
import Qualigence.Sqlite.IntakeStore

/-! # The states of a local run

What the statements of the intake store keep of the states of a run, inside and outside of
transactions, and from it what every history of its operations keeps.
-/

namespace Qualigence.Sqlite

open Foundation Protocol

/-! ## The backoff -/

theorem min_cappedPower (value exponent cap : ℕ) :
    min cap (cappedPower value exponent cap) = min cap (value * 2 ^ exponent) := by
  induction exponent generalizing value with
  | zero => simp [cappedPower]
  | succ n ih =>
    unfold cappedPower
    split
    · next h =>
      have hpos : 1 ≤ 2 ^ n := Nat.one_le_two_pow
      have hcap : cap ≤ value * 2 ^ (n + 1) := by
        calc cap ≤ value * 2 := by omega
          _ ≤ value * 2 * 2 ^ n := Nat.le_mul_of_pos_right _ hpos
          _ = value * 2 ^ (n + 1) := by rw [Nat.pow_succ, Nat.mul_assoc, Nat.mul_comm 2]
      rw [min_self, min_eq_left hcap]
    · rw [ih, Nat.pow_succ, Nat.mul_assoc, Nat.mul_comm 2]

/-! ## Rows -/

/-- The delay after the failure that was counted as an attempt. -/
def backoff (policy : LocalCompletionRetryPolicy) (attempt : ℤ) : ℕ :=
  min policy.retryMaximumMs (policy.retryBaseMs * 2 ^ (attempt - 1).toNat)

theorem retryDelay_eq (policy : LocalCompletionRetryPolicy) (attempt : ℤ) :
    LocalRunIntakeStore.retryDelay policy attempt = backoff policy attempt :=
  min_cappedPower _ _ _

/-- The attempts at the completion of a run and its next one. -/
structure LocalRunIntakeRow.Retries (policy : LocalCompletionRetryPolicy) (r : LocalRunIntakeRow) :
    Prop where
  nonneg : 0 ≤ r.completionAttempt
  bounded : r.completionAttempt ≤ policy.maximumAttempts
  exhausted : r.completionState = .retryExhausted ↔ r.completionAttempt = policy.maximumAttempts
  scheduled : r.completionState ≠ .retryExhausted → 0 < r.completionAttempt →
    ∃ failedAt failedMs, r.completionLastAttemptAt = some failedAt ∧
      instantMs failedAt = some failedMs ∧
      r.completionNextAttemptAt = toISOString (failedMs + backoff policy r.completionAttempt)

def IntakeDb.Valid (policy : LocalCompletionRetryPolicy) (db : IntakeDb) : Prop :=
  ∀ runId row, db.intakes.get runId = some row → row.Retries policy

/-- The dispatch of a run has come to its end. -/
def LocalDispatchState.Final (s : LocalDispatchState) : Prop :=
  s = .offered ∨ s = .offerOutcomeUnknown

/-- What a statement outside of transactions does to a row: the dispatch moves on, and a run that
awaits its completion may be blocked. -/
structure LocalRunIntakeRow.Aside (r r' : LocalRunIntakeRow) : Prop where
  begun : r.dispatchState ≠ .pendingRunner → r'.dispatchState ≠ .pendingRunner
  final : r.dispatchState.Final → r'.dispatchState = r.dispatchState
  state : r'.completionState = r.completionState ∨
    r.completionState = .awaiting ∧ r'.completionState = .integrityBlocked
  attempt : r'.completionAttempt = r.completionAttempt
  lastAttempt : r'.completionLastAttemptAt = r.completionLastAttemptAt
  nextAttempt : r'.completionNextAttemptAt = r.completionNextAttemptAt
  sha256 : r'.completionSha256 = r.completionSha256
  appliedAt : r'.completionAppliedAt = r.completionAppliedAt

/-- Such a statement on the rows of all runs. -/
structure IntakeDb.Aside (db db' : IntakeDb) : Prop where
  runs : db'.runs = db.runs
  absent : ∀ runId, db.intakes.get runId = none → db'.intakes.get runId = none
  present : ∀ runId row, db.intakes.get runId = some row →
    ∃ row', db'.intakes.get runId = some row' ∧ row.Aside row'

theorem LocalRunIntakeRow.Aside.refl (r : LocalRunIntakeRow) : r.Aside r :=
  ⟨id, fun _ => rfl, Or.inl rfl, rfl, rfl, rfl, rfl, rfl⟩

theorem LocalRunIntakeRow.Aside.trans {r r' r'' : LocalRunIntakeRow} (h : r.Aside r')
    (h' : r'.Aside r'') : r.Aside r'' where
  begun := h'.begun ∘ h.begun
  final hf := (h'.final (h.final hf ▸ hf)).trans (h.final hf)
  state := by
    rcases h.state with hs | ⟨hs, hs'⟩
    · rw [← hs]
      exact h'.state
    · refine Or.inr ⟨hs, ?_⟩
      rcases h'.state with ht | ⟨ht, -⟩
      · exact ht.trans hs'
      · cases hs'.symm.trans ht
  attempt := h'.attempt.trans h.attempt
  lastAttempt := h'.lastAttempt.trans h.lastAttempt
  nextAttempt := h'.nextAttempt.trans h.nextAttempt
  sha256 := h'.sha256.trans h.sha256
  appliedAt := h'.appliedAt.trans h.appliedAt

theorem IntakeDb.Aside.refl (db : IntakeDb) : db.Aside db :=
  ⟨rfl, fun _ h => h, fun _ row h => ⟨row, h, .refl row⟩⟩

theorem IntakeDb.Aside.trans {db db' db'' : IntakeDb} (h : db.Aside db') (h' : db'.Aside db'') :
    db.Aside db'' where
  runs := h'.runs.trans h.runs
  absent runId hn := h'.absent runId (h.absent runId hn)
  present runId row hr := by
    obtain ⟨row', hr', ha⟩ := h.present runId row hr
    obtain ⟨row'', hr'', ha'⟩ := h'.present runId row' hr'
    exact ⟨row'', hr'', ha.trans ha'⟩

/-- Whether a run is known does not change. -/
theorem IntakeDb.Aside.origin {db db' : IntakeDb} (h : db.Aside db') {runId : String}
    {row' : LocalRunIntakeRow} (hr : db'.intakes.get runId = some row') :
    ∃ row, db.intakes.get runId = some row ∧ row.Aside row' := by
  cases hg : db.intakes.get runId with
  | none => cases (h.absent runId hg).symm.trans hr
  | some row =>
    obtain ⟨row'', hr'', ha⟩ := h.present runId row hg
    cases hr.symm.trans hr''
    exact ⟨row, rfl, ha⟩

theorem IntakeDb.Aside.valid {policy : LocalCompletionRetryPolicy} {db db' : IntakeDb}
    (h : db.Aside db') (hv : db.Valid policy) : db'.Valid policy := by
  intro runId row' hr
  obtain ⟨row, hrow, ha⟩ := h.origin hr
  have hret := hv runId row hrow
  refine ⟨?_, ?_, ?_, ?_⟩
  · rw [ha.attempt]
    exact hret.nonneg
  · rw [ha.attempt]
    exact hret.bounded
  · rw [ha.attempt, ← hret.exhausted]
    rcases ha.state with hs | ⟨hs, hs'⟩
    · rw [hs]
    · rw [hs, hs']
      exact ⟨nofun, nofun⟩
  · intro hne hpos
    rw [ha.attempt] at hpos ⊢
    rw [ha.lastAttempt, ha.nextAttempt]
    refine hret.scheduled (fun he => ?_) hpos
    rcases ha.state with hs | ⟨hs, -⟩
    · exact hne (hs.trans he)
    · cases hs.symm.trans he

/-- An update that moves rows aside only. -/
theorem IntakeDb.aside_updateIntakes {db : IntakeDb} {p : LocalRunIntakeRow → Bool}
    {f : LocalRunIntakeRow → LocalRunIntakeRow} {hf : ∀ r, (f r).runId = r.runId}
    (h : ∀ r, p r → r.Aside (f r)) : db.Aside (db.updateIntakes p f hf).2 where
  runs := rfl
  absent runId hn := by
    simp only [IntakeDb.updateIntakes, Table.get_update, hn, Option.map_none]
  present runId row hr := by
    simp only [IntakeDb.updateIntakes, Table.get_update, hr, Option.map_some]
    refine ⟨_, rfl, ?_⟩
    split
    · next hp => exact h row hp
    · exact .refl row

/-! ## Results -/

/-- A run is applied with the result of a call of `applyCompletion`. -/
structure IntakeDb.HasResult (P : Platform) (db : IntakeDb) (q : CompletionInput) : Prop where
  intake : ∃ row, db.intakes.get q.runId = some row ∧ row.completionState = .applied ∧
    row.completionSha256 = canonicalPayloadHash P q.completion.toValue ∧
    row.completionAppliedAt = some q.completedAt
  run : ∃ run, db.runs.get q.runId = some run ∧ run.status = completionRunStatus q.completion ∧
    run.completedAt = some q.completedAt ∧ run.errorCode = completionErrorCode q.completion

theorem completionRunStatus_ne_running (c : ExecutionCompletion) :
    completionRunStatus c ≠ .running := by
  unfold completionRunStatus
  cases c.status <;> nofun

/-- What one database has of another, but for the run that a completion is applied to: no run is
applied anew or awaits its completion again. -/
structure IntakeDb.Carries (P : Platform) (c w : IntakeDb) (runId : String) : Prop where
  known : w.intakes.get runId = none → c.intakes.get runId = none
  applied : ∀ row', w.intakes.get runId = some row' → row'.completionState = .applied →
    ∃ row, c.intakes.get runId = some row ∧ row.completionState = .applied
  result : ∀ q, q.runId = runId → c.HasResult P q → w.HasResult P q
  awaiting : ∀ row', w.intakes.get runId = some row' → row'.completionState = .awaiting →
    ∀ row, c.intakes.get runId = some row → row.completionState = .awaiting

variable {P : Platform} {c w w' : IntakeDb} {runId : String}

theorem IntakeDb.Carries.refl (c : IntakeDb) (runId : String) : c.Carries P c runId where
  known h := h
  applied row' hr hs := ⟨row', hr, hs⟩
  result _ _ h := h
  awaiting row' hr hs row hr' := by
    cases hr.symm.trans hr'
    exact hs

theorem IntakeDb.Carries.trans {u : IntakeDb} (h : c.Carries P w runId)
    (h' : w.Carries P u runId) : c.Carries P u runId where
  known hn := h.known (h'.known hn)
  applied row' hr hs := by
    obtain ⟨row, hrow, hs'⟩ := h'.applied row' hr hs
    exact h.applied row hrow hs'
  result q hq hres := h'.result q hq (h.result q hq hres)
  awaiting row'' hr hs row hrow := by
    cases hw : w.intakes.get runId with
    | none => cases (h.known hw).symm.trans hrow
    | some row' => exact h.awaiting row' hw (h'.awaiting row'' hr hs row' hw) row hrow

theorem IntakeDb.HasResult.aside {q : CompletionInput} (h : w.HasResult P q) (ha : w.Aside w') :
    w'.HasResult P q where
  intake := by
    obtain ⟨row, hrow, hs, hsha, hat⟩ := h.intake
    obtain ⟨row', hrow', hr⟩ := ha.present _ row hrow
    refine ⟨row', hrow', ?_, hr.sha256.trans hsha, hr.appliedAt.trans hat⟩
    rcases hr.state with he | ⟨he, -⟩
    · exact he.trans hs
    · cases he.symm.trans hs
  run := by
    rw [ha.runs]
    exact h.run

theorem IntakeDb.Aside.carries (ha : w.Aside w') (runId : String) : w.Carries P w' runId where
  known hn := by
    cases hg : w.intakes.get runId with
    | none => rfl
    | some row =>
      obtain ⟨row', hr', -⟩ := ha.present runId row hg
      cases hn.symm.trans hr'
  applied row' hr hs := by
    obtain ⟨row, hrow, hrel⟩ := ha.origin hr
    refine ⟨row, hrow, ?_⟩
    rcases hrel.state with he | ⟨-, he⟩
    · exact he.symm.trans hs
    · cases he.symm.trans hs
  result _ _ h := h.aside ha
  awaiting row' hr hs row hrow := by
    obtain ⟨row'', hrow'', hrel⟩ := ha.present runId row hrow
    cases hr.symm.trans hrow''
    rcases hrel.state with he | ⟨he, -⟩
    · exact he.symm.trans hs
    · exact he

/-! ## Statements in a transaction -/

/-- What a statement does inside of the transaction that it belongs to. -/
structure IntakeDb.Inside (policy : LocalCompletionRetryPolicy) (v v' : IntakeDb) : Prop where
  valid : v.Valid policy → v'.Valid policy
  present : ∀ runId row, v.intakes.get runId = some row → ∃ row', v'.intakes.get runId = some row' ∧
    row'.dispatchState = row.dispatchState ∧
    (row.completionState ≠ .awaiting → row'.completionState = row.completionState)
  fresh : ∀ runId row', v'.intakes.get runId = some row' → v.intakes.get runId = none →
    row'.dispatchState = .pendingRunner

variable {policy : LocalCompletionRetryPolicy}

theorem IntakeDb.inside_of_intakes {v v' : IntakeDb} (h : v'.intakes = v.intakes) :
    v.Inside policy v' where
  valid hv := by
    unfold IntakeDb.Valid
    rw [h]
    exact hv
  present runId row hr := ⟨row, by rw [h, hr], rfl, fun _ => rfl⟩
  fresh runId row' hr hn := by
    rw [h, hn] at hr
    cases hr

section Update

variable {p : LocalRunIntakeRow → Bool} {f : LocalRunIntakeRow → LocalRunIntakeRow}
  {hf : ∀ r, (f r).runId = r.runId}

theorem get_updateIntakes : (w.updateIntakes p f hf).2.intakes.get runId =
    (w.intakes.get runId).map fun r => if p r then f r else r := by
  simp only [IntakeDb.updateIntakes, Table.get_update]

/-- An update of runs that await their completion. -/
theorem IntakeDb.inside_updateIntakes (hp : ∀ r, p r → r.completionState = .awaiting)
    (hd : ∀ r, p r → (f r).dispatchState = r.dispatchState)
    (hr : ∀ r, p r → r.Retries policy → (f r).Retries policy) :
    w.Inside policy (w.updateIntakes p f hf).2 where
  valid hv := by
    intro runId row' hrow'
    rw [get_updateIntakes, Option.map_eq_some_iff] at hrow'
    obtain ⟨row, hrow, rfl⟩ := hrow'
    split
    · next h => exact hr row h (hv runId row hrow)
    · exact hv runId row hrow
  present runId row hrow := by
    rw [get_updateIntakes, hrow, Option.map_some]
    refine ⟨_, rfl, ?_⟩
    split
    · next h => exact ⟨hd row h, fun hne => absurd (hp row h) hne⟩
    · exact ⟨rfl, fun _ => rfl⟩
  fresh runId row' hrow' hn := by
    rw [get_updateIntakes, hn] at hrow'
    cases hrow'

/-- An update that applies no completion to a run. -/
theorem IntakeDb.carries_updateIntakes
    (hp : ∀ r, r.runId = runId → p r →
      r.completionState = .awaiting ∧ (f r).completionState ≠ .applied) :
    w.Carries P (w.updateIntakes p f hf).2 runId := by
  have hkey : ∀ row, w.intakes.get runId = some row → row.runId = runId :=
    fun row hrow => Table.key_of_get hrow
  refine ⟨fun hn => ?_, fun row' hrow' hs => ?_, fun q hq hres => ?_, fun row' hrow' hs row hrow => ?_⟩
  · rwa [get_updateIntakes, Option.map_eq_none_iff] at hn
  · rw [get_updateIntakes, Option.map_eq_some_iff] at hrow'
    obtain ⟨row, hrow, rfl⟩ := hrow'
    split at hs
    · next h => exact absurd hs (hp row (hkey row hrow) h).2
    · exact ⟨row, hrow, hs⟩
  · obtain ⟨row, hrow, hs, hres'⟩ := hres.intake
    refine ⟨⟨row, ?_, hs, hres'⟩, hres.run⟩
    rw [hq] at hrow ⊢
    rw [get_updateIntakes, hrow, Option.map_some, if_neg]
    intro h
    cases hs.symm.trans (hp row (hkey row hrow) h).1
  · rw [get_updateIntakes, hrow, Option.map_some] at hrow'
    cases hrow'
    split at hs
    · next h => exact (hp row (hkey row hrow) h).1
    · exact hs

end Update

section Statements

theorem awaits_iff {expectedAttempt : ℤ} {r : LocalRunIntakeRow} :
    LocalRunIntakeRow.awaits runId expectedAttempt r ↔
      r.runId = runId ∧ r.completionState = .awaiting ∧ r.completionAttempt = expectedAttempt := by
  simp [LocalRunIntakeRow.awaits]

theorem carries_insertRun (row : ExecutionRunRow) : w.Carries P (w.insertRun row).2 runId := by
  unfold IntakeDb.insertRun
  split
  · exact .refl w runId
  · next runs h =>
    refine ⟨id, fun row' hr hs => ⟨row', hr, hs⟩, fun q hq hres => ?_, fun row' hr hs r hr' => ?_⟩
    · obtain ⟨run, hrun, hrest⟩ := hres.run
      exact ⟨hres.intake, run, Table.get_of_insert_of_get h hrun, hrest⟩
    · cases hr.symm.trans hr'
      exact hs

theorem inside_insertRun (row : ExecutionRunRow) : w.Inside policy (w.insertRun row).2 := by
  refine IntakeDb.inside_of_intakes ?_
  unfold IntakeDb.insertRun
  split <;> rfl

/-- The row of a new run. -/
structure LocalRunIntakeRow.IsNew (policy : LocalCompletionRetryPolicy) (r : LocalRunIntakeRow) :
    Prop where
  pending : r.dispatchState = .pendingRunner
  awaiting : r.completionState = .awaiting
  retries : r.Retries policy

theorem isNew_newIntake (hp : policy.Valid) (job : AcceptedExecutionJob) (sha256 : String)
    (createdAt : Timestamp) :
    (LocalRunIntakeStore.newIntake job sha256 createdAt).IsNew policy := by
  have hpos : 0 < policy.maximumAttempts := hp.attempts.1
  refine ⟨rfl, rfl, le_refl (0 : ℤ), ?_, ?_, fun _ h => absurd h (lt_irrefl (0 : ℤ))⟩
  · exact Int.natCast_nonneg _
  · refine ⟨nofun, fun h => ?_⟩
    change (0 : ℤ) = policy.maximumAttempts at h
    omega

/-- What is inserted as a new row. -/
theorem insertIntake_cases (row : LocalRunIntakeRow) :
    (w.insertIntake row).2 = w ∨ ∃ intakes, w.intakes.insert row = some intakes ∧
      (w.insertIntake row).2 = { w with intakes } := by
  unfold IntakeDb.insertIntake
  split
  · exact Or.inl rfl
  split
  · exact Or.inl rfl
  split
  · exact Or.inl rfl
  · next intakes h => exact Or.inr ⟨intakes, h, rfl⟩

theorem inside_insertIntake {row : LocalRunIntakeRow} (hnew : row.IsNew policy) :
    w.Inside policy (w.insertIntake row).2 := by
  rcases insertIntake_cases (w := w) row with h | ⟨intakes, hins, h⟩
  · rw [h]
    exact IntakeDb.inside_of_intakes rfl
  rw [h]
  refine ⟨fun hv runId r hr => ?_, fun runId r hr => ?_, fun runId r hr hn => ?_⟩
  · change intakes.get runId = some r at hr
    rw [Table.get_of_insert hins] at hr
    split at hr
    · cases hr
      exact hnew.retries
    · exact hv runId r hr
  · exact ⟨r, Table.get_of_insert_of_get hins hr, rfl, fun _ => rfl⟩
  · change intakes.get runId = some r at hr
    rw [Table.get_of_insert hins] at hr
    split at hr
    · cases hr
      exact hnew.pending
    · cases hn.symm.trans hr

theorem carries_insertIntake {row : LocalRunIntakeRow} (hnew : row.IsNew policy) :
    w.Carries P (w.insertIntake row).2 runId := by
  rcases insertIntake_cases (w := w) row with h | ⟨intakes, hins, h⟩
  · rw [h]
    exact .refl w runId
  rw [h]
  have hget : ∀ r, intakes.get runId = some r → w.intakes.get runId = some r ∨
      r = row ∧ w.intakes.get runId = none := by
    intro r hr
    rw [Table.get_of_insert hins] at hr
    split at hr
    · next he =>
      cases hr
      exact Or.inr ⟨rfl, he ▸ Table.get_eq_none_of_insert hins⟩
    · exact Or.inl hr
  refine ⟨fun hn => ?_, fun r hr hs => ?_, fun q _ hres => ?_, fun r hr hs r' hr' => ?_⟩
  · by_contra hne
    obtain ⟨r, hr⟩ := Option.ne_none_iff_exists'.mp hne
    cases hn.symm.trans (Table.get_of_insert_of_get hins hr)
  · rcases hget r hr with hr | ⟨rfl, -⟩
    · exact ⟨r, hr, hs⟩
    · cases hs.symm.trans hnew.awaiting
  · obtain ⟨r, hr, hrest⟩ := hres.intake
    exact ⟨⟨r, Table.get_of_insert_of_get hins hr, hrest⟩, hres.run⟩
  · rcases hget r hr with hr | ⟨-, hn⟩
    · cases hr.symm.trans hr'
      exact hs
    · cases hn.symm.trans hr'

theorem inside_exhaust {expectedAttempt : ℤ} {failedAt : Timestamp} {errorCode : String}
    (hmax : policy.maximumAttempts ≤ expectedAttempt + 1) :
    w.Inside policy (intakeHandler
      (.exhaust runId expectedAttempt (expectedAttempt + 1) failedAt errorCode) w).2 := by
  refine IntakeDb.inside_updateIntakes (fun r hr => (awaits_iff.mp hr).2.1) (fun _ _ => rfl) ?_
  intro r hr hret
  obtain ⟨-, hs, hatt⟩ := awaits_iff.mp hr
  have hne : r.completionAttempt ≠ policy.maximumAttempts := by
    intro he
    cases hs.symm.trans (hret.exhausted.mpr he)
  have hle := hret.bounded
  have hnonneg := hret.nonneg
  have heq : expectedAttempt + 1 = policy.maximumAttempts := by omega
  refine ⟨?_, ?_, ⟨fun _ => heq, fun _ => rfl⟩, fun h => absurd rfl h⟩
  · change 0 ≤ expectedAttempt + 1
    omega
  · exact heq.le

theorem inside_schedule {expectedAttempt : ℤ} {failedAt : Timestamp} {failedMs : Int}
    {errorCode : String} (hms : instantMs failedAt = some failedMs)
    (hmax : ¬ policy.maximumAttempts ≤ expectedAttempt + 1) :
    w.Inside policy (intakeHandler (.schedule runId expectedAttempt (expectedAttempt + 1) failedAt
      (toISOString (failedMs + backoff policy (expectedAttempt + 1))) errorCode) w).2 := by
  refine IntakeDb.inside_updateIntakes (fun r hr => (awaits_iff.mp hr).2.1) (fun _ _ => rfl) ?_
  intro r hr hret
  obtain ⟨-, hs, hatt⟩ := awaits_iff.mp hr
  have hnonneg := hret.nonneg
  refine ⟨?_, ?_, ⟨fun h => ?_, fun h => ?_⟩, fun _ _ => ⟨failedAt, failedMs, rfl, hms, rfl⟩⟩
  · change 0 ≤ expectedAttempt + 1
    omega
  · change expectedAttempt + 1 ≤ policy.maximumAttempts
    omega
  · cases hs.symm.trans h
  · change expectedAttempt + 1 = policy.maximumAttempts at h
    omega

theorem carries_exhaust {expectedAttempt attempt : ℤ} {failedAt : Timestamp} {errorCode : String}
    {runId' : String} : w.Carries P (intakeHandler
      (.exhaust runId' expectedAttempt attempt failedAt errorCode) w).2 runId :=
  IntakeDb.carries_updateIntakes fun _ _ hr => ⟨(awaits_iff.mp hr).2.1, nofun⟩

theorem carries_schedule {expectedAttempt attempt : ℤ} {failedAt next : Timestamp}
    {errorCode : String} {runId' : String} : w.Carries P (intakeHandler
      (.schedule runId' expectedAttempt attempt failedAt next errorCode) w).2 runId := by
  refine IntakeDb.carries_updateIntakes fun r _ hr => ?_
  have hs := (awaits_iff.mp hr).2.1
  refine ⟨hs, fun h => ?_⟩
  cases hs.symm.trans h

/-- A run that has a result is not running any more. -/
theorem carries_finishRun {status : LocalRunStatus} {completedAt : Timestamp}
    {errorCode : Option String} {runId' : String} : w.Carries P
      (intakeHandler (.finishRun runId' status completedAt errorCode) w).2 runId := by
  refine ⟨id, fun row' hr hs => ⟨row', hr, hs⟩, fun q _ hres => ⟨hres.intake, ?_⟩,
    fun row' hr hs row hrow => ?_⟩
  · obtain ⟨run, hrun, hs, hrest⟩ := hres.run
    refine ⟨run, ?_, hs, hrest⟩
    simp only [intakeHandler, Table.get_update, hrun, Option.map_some]
    rw [if_neg]
    intro h
    exact completionRunStatus_ne_running q.completion (hs.symm.trans (of_decide_eq_true h).2)
  · cases hr.symm.trans hrow
    exact hs

theorem inside_markApplied {expectedAttempt : ℤ} {sha256 : String} {completedAt : Timestamp} :
    w.Inside policy
      (intakeHandler (.markApplied runId expectedAttempt sha256 completedAt) w).2 := by
  refine IntakeDb.inside_updateIntakes (fun r hr => (awaits_iff.mp hr).2.1) (fun _ _ => rfl) ?_
  intro r hr hret
  obtain ⟨-, hs, -⟩ := awaits_iff.mp hr
  have hne : r.completionState ≠ .retryExhausted := by
    intro he
    cases hs.symm.trans he
  refine ⟨hret.nonneg, hret.bounded, ⟨nofun, fun h => ?_⟩, fun _ => hret.scheduled hne⟩
  exact absurd (hret.exhausted.mpr h) hne

theorem carries_markApplied {expectedAttempt : ℤ} {sha256 : String} {completedAt : Timestamp}
    {runId' : String} (hne : runId' ≠ runId) : w.Carries P
      (intakeHandler (.markApplied runId' expectedAttempt sha256 completedAt) w).2 runId :=
  IntakeDb.carries_updateIntakes fun _ hr hp =>
    absurd ((awaits_iff.mp hp).1.symm.trans hr) hne

end Statements

/-! ## The practice of the operations -/

/-- The call of `applyCompletion` that has applied the completion of a run. -/
def appliedTo (runId : String) : IntakeRequest × IntakeAnswer → Option CompletionInput
  | (.applyCompletion q, .apply .applied) => if q.runId = runId then some q else none
  | _ => none

/-- A successful call of `beginOffer` for a run. -/
def begins (runId : String) : IntakeRequest × IntakeAnswer → Bool
  | (.beginOffer runId' _ _, .begun true) => runId' = runId
  | _ => false

theorem begins_iff {runId : String} {request : IntakeRequest} {ans : IntakeAnswer} :
    begins runId (request, ans) ↔
      (∃ n t, request = .beginOffer runId n t) ∧ ans = .begun true := by
  unfold begins
  split
  · next he =>
    obtain ⟨rfl, rfl⟩ := Prod.mk.inj he
    simp
  · next h =>
    refine ⟨nofun, ?_⟩
    rintro ⟨⟨n, t, rfl⟩, rfl⟩
    exact absurd rfl (h runId n t)

/-- A retry that was scheduled lies the delay of its attempt after the failure. -/
def ScheduledRight (policy : LocalCompletionRetryPolicy) : IntakeRequest × IntakeAnswer → Prop
  | (.recordCompletionFailure _ expectedAttempt _ failedAt, .retry (.scheduled attempt next)) =>
    attempt = expectedAttempt + 1 ∧ ∃ failedMs, instantMs failedAt = some failedMs ∧
      next = toISOString (failedMs + backoff policy attempt)
  | _ => True

def IntakeDb.Pending (db : IntakeDb) (runId : String) : Prop :=
  ∃ row, db.intakes.get runId = some row ∧ row.dispatchState = .pendingRunner

def IntakeDb.Begun (db : IntakeDb) (runId : String) : Prop :=
  ∃ row, db.intakes.get runId = some row ∧ row.dispatchState ≠ .pendingRunner

/-- A statement outside of transactions, with the answer that its request gets from it. -/
structure StatementAlone (policy : LocalCompletionRetryPolicy) (request : IntakeRequest)
    (v v' : IntakeDb) (a : Option IntakeAnswer) : Prop where
  aside : v.Aside v'
  begins : ∀ runId ans, a = some ans → begins runId (request, ans) →
    v.Pending runId ∧ v'.Begun runId
  applies : ∀ runId ans, a = some ans → appliedTo runId (request, ans) = none
  schedules : ∀ ans, a = some ans → ScheduledRight policy (request, ans)

/-- A transaction that was begun on `c` and is committed as `w`. -/
structure TransactionCommits (P : Platform) (policy : LocalCompletionRetryPolicy)
    (request : IntakeRequest) (c w : IntakeDb) (a : Option IntakeAnswer) : Prop where
  begins : ∀ runId ans, a = some ans → begins runId (request, ans) = false
  carries : ∀ runId, (∀ ans, a = some ans → appliedTo runId (request, ans) = none) →
    c.Carries P w runId
  applies : ∀ runId ans q, a = some ans → appliedTo runId (request, ans) = some q →
    (∃ row, c.intakes.get runId = some row ∧ row.completionState = .awaiting) ∧
      ∃ row', w.intakes.get runId = some row' ∧ row'.completionState ≠ .awaiting ∧
        (row'.completionState = .applied → w.HasResult P q)
  schedules : ∀ ans, a = some ans → ScheduledRight policy (request, ans)

def intakePractice (P : Platform) (policy : LocalCompletionRetryPolicy) :
    Practice IntakeRequest IntakeAnswer IntakeDb where
  rely := IntakeDb.Aside
  alone := StatementAlone policy
  within := IntakeDb.Inside policy
  commits := TransactionCommits P policy
  rely_refl := .refl
  rely_trans _ _ _ := .trans
  rely_of_alone _ _ _ _ h := h.aside

/-- An operation keeps to the practice and answers only after its first step. -/
def Proper (P : Platform) (policy : LocalCompletionRetryPolicy) (request : IntakeRequest)
    (o : IntakeOperation IntakeAnswer) : Prop :=
  o.Keeps intakeDatabase (intakePractice P policy) request ∧ o.answer = none

theorem proper_throw (request : IntakeRequest) (e : SqliteFault) :
    Proper P policy request (.done (.error e)) := ⟨trivial, rfl⟩

/-- A transaction whose result becomes the answer. -/
theorem proper_runInImmediateTransaction {β : Type} {request : IntakeRequest}
    {body : IntakeProgram β} {f : β → IntakeAnswer}
    (h : ∀ c, BodyKeeps intakeDatabase (intakePractice P policy)
      (fun b w => TransactionCommits P policy request c w (some (f b))) body c) :
    Proper P policy request
      ((runInImmediateTransaction body).bind fun b => .done (.ok (f b))) := by
  have herr : ∀ e : SqliteFault, ∃ e', (Operation.tryCatch (.done (.error e)) fun error =>
      if isSqliteBusyError error then throw (mapBusyError error) else throw error :
        IntakeOperation β) = .done (.error e') := by
    intro e
    change ∃ e', (if isSqliteBusyError e then Operation.done (.error (mapBusyError e))
      else .done (.error e) : IntakeOperation β) = .done (.error e')
    split <;> exact ⟨_, rfl⟩
  refine ⟨⟨h, fun x => ?_, fun e => ?_⟩, rfl⟩
  · cases x with
    | ok b => trivial
    | error e =>
      obtain ⟨e', he⟩ := herr e
      dsimp only
      rw [he]
      trivial
  · obtain ⟨e', he⟩ := herr e
    dsimp only
    rw [he]
    rfl

/-- A statement whose reply becomes the answer. -/
theorem proper_perform {request : IntakeRequest} (op : IntakeStatement)
    (f : IntakeSql.Reply op → IntakeAnswer)
    (h : ∀ v, StatementAlone policy request v (intakeHandler op v).2
      (((intakeHandler op v).1.toOption).map f)) :
    Proper P policy request
      ((Operation.perform (S := IntakeSql) op).bind fun b => .done (.ok (f b))) := by
  refine ⟨⟨fun v => ?_, fun x => ?_, fun e => rfl⟩, rfl⟩
  · have hv := h v
    change StatementAlone policy request v (intakeHandler op v).2 _
    change StatementAlone policy request v _ (Operation.answer
      ((Operation.done (intakeHandler op v).1).bind fun b => .done (.ok (f b))))
    cases hr : (intakeHandler op v).1 with
    | ok b =>
      rw [hr] at hv
      exact hv
    | error e =>
      rw [hr] at hv
      exact hv
  · cases x <;> trivial

section Standalone

/-- An update of the dispatch of runs, one of them at most. -/
theorem beginOffer_pending {v : IntakeDb} {expectedAttempt : ℤ} {startedAt : Timestamp}
    (h : (intakeHandler (.beginOffer runId expectedAttempt startedAt) v).1.toOption = some 1) :
    v.Pending runId ∧ (intakeHandler (.beginOffer runId expectedAttempt startedAt) v).2.Begun
      runId := by
  have hcount : v.intakes.count (fun r => r.runId = runId ∧ r.dispatchState = .pendingRunner ∧
      r.dispatchAttempt = expectedAttempt) = 1 := Option.some.inj h
  obtain ⟨row, hmem, hp⟩ := List.countP_pos_iff.mp
    (show 0 < v.intakes.rows.countP _ from hcount ▸ Nat.one_pos)
  obtain ⟨hrun, hs, hatt⟩ := of_decide_eq_true hp
  have hget : v.intakes.get runId = some row := Table.get_eq_some_iff.mpr ⟨hmem, hrun⟩
  refine ⟨⟨row, hget, hs⟩, row.begun expectedAttempt startedAt, ?_, nofun⟩
  refine (get_updateIntakes (w := v)).trans ?_
  rw [hget, Option.map_some, if_pos hp]

theorem aside_beginOffer (v : IntakeDb) (runId : String) (expectedAttempt : ℤ)
    (startedAt : Timestamp) :
    v.Aside (intakeHandler (.beginOffer runId expectedAttempt startedAt) v).2 := by
  refine IntakeDb.aside_updateIntakes fun r hr => ?_
  obtain ⟨-, hs, -⟩ := of_decide_eq_true hr
  refine ⟨fun _ => nofun, fun hf => ?_, Or.inl rfl, rfl, rfl, rfl, rfl, rfl⟩
  rw [LocalDispatchState.Final, hs] at hf
  rcases hf with hf | hf <;> cases hf

/-- The end of a dispatch that is under way. -/
theorem aside_dispatched {r : LocalRunIntakeRow} {state : LocalDispatchState} {at' : Timestamp}
    {errorCode : Option String} (hr : r.dispatchState = .dispatching)
    (hs : state ≠ .pendingRunner) : r.Aside (r.dispatched state at' errorCode) := by
  refine ⟨fun _ => hs, fun hf => ?_, Or.inl rfl, rfl, rfl, rfl, rfl, rfl⟩
  rw [LocalDispatchState.Final, hr] at hf
  rcases hf with hf | hf <;> cases hf

theorem aside_finishDispatch (v : IntakeDb) (runId : String) (attempt : ℤ)
    {state : LocalDispatchState} (at' : Timestamp) (errorCode : Option String)
    (hs : state ≠ .pendingRunner) :
    v.Aside (intakeHandler (.finishDispatch runId attempt state at' errorCode) v).2 :=
  IntakeDb.aside_updateIntakes fun _ hr => aside_dispatched (of_decide_eq_true hr).2.1 hs

theorem aside_quarantine (v : IntakeDb) (at' : Timestamp) :
    v.Aside (intakeHandler (.quarantine at') v).2 :=
  IntakeDb.aside_updateIntakes fun _ hr => aside_dispatched (of_decide_eq_true hr) nofun

theorem aside_block (v : IntakeDb) (runId : String) (expectedAttempt : ℤ) (errorCode : String)
    (blockedAt : Timestamp) :
    v.Aside (intakeHandler (.block runId expectedAttempt errorCode blockedAt) v).2 := by
  refine IntakeDb.aside_updateIntakes fun r hr => ?_
  obtain ⟨-, hs, -⟩ := awaits_iff.mp hr
  exact ⟨id, fun _ => rfl, Or.inr ⟨hs, rfl⟩, rfl, rfl, rfl, rfl, rfl⟩

/-- An answer that neither begins an offer nor tells of a completion or a retry. -/
theorem alone_of_aside {request : IntakeRequest} {v v' : IntakeDb} {a : Option IntakeAnswer}
    (h : v.Aside v') (ha : ∀ ans, a = some ans → (∃ n, ans = .finished n) ∨
      (∃ n, ans = .quarantined n) ∨ ∃ b, ans = .block b) :
    StatementAlone policy request v v' a := by
  refine ⟨h, fun runId ans hans hb => ?_, fun runId ans hans => ?_, fun ans hans => ?_⟩
  · rcases ha ans hans with ⟨_, rfl⟩ | ⟨_, rfl⟩ | ⟨_, rfl⟩ <;> cases request <;> cases hb
  · rcases ha ans hans with ⟨_, rfl⟩ | ⟨_, rfl⟩ | ⟨_, rfl⟩ <;> cases request <;> rfl
  · rcases ha ans hans with ⟨_, rfl⟩ | ⟨_, rfl⟩ | ⟨_, rfl⟩ <;> cases request <;> trivial

theorem proper_beginOffer (runId : String) (expectedAttempt : ℤ) (startedAt : Timestamp) :
    Proper P policy (.beginOffer runId expectedAttempt startedAt)
      (IntakeRequest.operation P policy (.beginOffer runId expectedAttempt startedAt)) := by
  change Proper P policy _
    ((LocalRunIntakeStore.beginOffer runId expectedAttempt startedAt).bind _)
  unfold LocalRunIntakeStore.beginOffer
  cases instant startedAt with
  | error e => exact proper_throw _ e
  | ok ms =>
    change Proper P policy _ (Operation.bind (Operation.bind _ _) _)
    rw [Operation.bind_assoc]
    refine proper_perform (.beginOffer runId expectedAttempt startedAt)
      (fun updated : ℕ => .begun (updated = 1)) fun v => ?_
    refine ⟨aside_beginOffer v _ _ _, fun runId' ans hans hb => ?_, ?_, ?_⟩
    · obtain ⟨⟨_, _, hreq⟩, rfl⟩ := begins_iff.mp hb
      cases hreq
      have hn := of_decide_eq_true (IntakeAnswer.begun.inj (Option.some.inj hans))
      exact beginOffer_pending (congrArg some hn)
    · rintro _ _ ⟨⟩
      rfl
    · rintro _ ⟨⟩
      trivial

theorem proper_finishDispatch (request : IntakeRequest) (runId : String) (expectedAttempt : ℤ)
    {state : LocalDispatchState} (at' : Timestamp) (errorCode : Option String)
    (hs : state ≠ .pendingRunner) :
    Proper P policy request ((LocalRunIntakeStore.finishDispatch runId expectedAttempt state at'
      errorCode).bind fun b => .done (.ok (.finished b))) := by
  unfold LocalRunIntakeStore.finishDispatch
  cases instant at' with
  | error e => exact proper_throw _ e
  | ok ms =>
    change Proper P policy _ (Operation.bind (Operation.bind _ _) _)
    rw [Operation.bind_assoc]
    refine proper_perform (.finishDispatch runId (expectedAttempt + 1) state at' errorCode)
      (fun updated : ℕ => .finished (updated = 1)) fun v => ?_
    refine alone_of_aside (aside_finishDispatch v _ _ _ _ hs) ?_
    rintro _ ⟨⟩
    exact Or.inl ⟨_, rfl⟩

theorem proper_quarantine (request : IntakeRequest) (at' : Timestamp) :
    Proper P policy request ((LocalRunIntakeStore.quarantineInterruptedDispatches at').bind
      fun n => .done (.ok (.quarantined n))) := by
  unfold LocalRunIntakeStore.quarantineInterruptedDispatches
  cases instant at' with
  | error e => exact proper_throw _ e
  | ok ms =>
    refine proper_perform (.quarantine at') .quarantined fun v => ?_
    refine alone_of_aside (aside_quarantine v _) ?_
    rintro _ ⟨⟩
    exact Or.inr (Or.inl ⟨_, rfl⟩)

theorem proper_markIntegrityBlocked (request : IntakeRequest) (runId : String)
    (expectedAttempt : ℤ) (errorCode : String) (blockedAt : Timestamp) :
    Proper P policy request ((LocalRunIntakeStore.markIntegrityBlocked runId expectedAttempt
      errorCode blockedAt).bind fun b => .done (.ok (.block b))) := by
  unfold LocalRunIntakeStore.markIntegrityBlocked
  cases instant blockedAt with
  | error e => exact proper_throw _ e
  | ok ms =>
    have hselect : Proper P policy request
        ((Operation.perform (S := IntakeSql) (.selectState runId)).bind
          fun row : Option LocalCompletionState => .done (.ok (.block
            (if row = some .integrityBlocked ∨ row = some .retryExhausted then .blocked
              else .stale)))) := by
      refine proper_perform (.selectState runId) (fun row : Option LocalCompletionState => .block
        (if row = some .integrityBlocked ∨ row = some .retryExhausted then .blocked
          else .stale)) fun v => alone_of_aside (.refl v) ?_
      rintro _ ⟨⟩
      exact Or.inr (Or.inr ⟨_, rfl⟩)
    refine ⟨⟨fun v => ?_, fun x => ?_, fun e => rfl⟩, rfl⟩
    · refine alone_of_aside (aside_block v _ _ _ _) ?_
      change ∀ ans, Operation.answer (Operation.bind (if v.intakes.count _ = 1 then _ else _) _) =
        some ans → _
      split
      · rintro _ ⟨⟩
        exact Or.inr (Or.inr ⟨_, rfl⟩)
      · rintro _ ⟨⟩
    · cases x with
      | error e => trivial
      | ok n =>
        change Operation.Keeps _ _ _ (Operation.bind (if n = 1 then _ else _) _)
        split
        · trivial
        · change Operation.Keeps _ _ _ (Operation.bind (Operation.bind _ _) _)
          rw [Operation.bind_assoc]
          exact hselect.1

end Standalone

section Bodies

variable {request : IntakeRequest}

/-- The body of a transaction in progress has carried what was there before it. -/
abbrev Carried (P : Platform) (c w : IntakeDb) : Prop := ∀ runId, c.Carries P w runId

theorem Carried.aside (h : Carried P c w) (ha : w.Aside w') : Carried P c w' :=
  fun runId => (h runId).trans (ha.carries runId)

theorem commits_of_carried {ans : IntakeAnswer} (h : Carried P c w)
    (hb : ∀ runId, begins runId (request, ans) = false)
    (ha : ∀ runId, appliedTo runId (request, ans) = none)
    (hs : ScheduledRight policy (request, ans)) :
    TransactionCommits P policy request c w (some ans) where
  begins runId _ he := Option.some.inj he ▸ hb runId
  carries runId _ := h runId
  applies runId ans' q he hq := by
    cases he
    cases (ha runId).symm.trans hq
  schedules _ he := Option.some.inj he ▸ hs

theorem proper_create (hp : policy.Valid) (job : AcceptedExecutionJob) (createdAt : Timestamp) :
    Proper P policy request ((LocalRunIntakeStore.create P job createdAt).bind
      fun _ => .done (.ok .created)) := by
  unfold LocalRunIntakeStore.create
  split
  · exact proper_throw _ _
  · exact proper_throw _ _
  next ms job' _ _ =>
  refine proper_runInImmediateTransaction (f := fun _ => .created) fun c => ?_
  refine bodyKeeps_step (fun w _ => inside_insertRun _) fun w _ hw _ => ?_
  have hc : Carried P c (intakeDatabase.handle
      (.insertRun (LocalRunIntakeStore.newRun job' createdAt)) w).2 :=
    fun runId => (IntakeDb.Aside.carries hw runId).trans (carries_insertRun _)
  split
  · trivial
  · next sha256 _ =>
    have hnew := isNew_newIntake hp job' sha256 createdAt
    refine bodyKeeps_last (fun w' _ => inside_insertIntake hnew) fun w' _ u hw' _ hu => ?_
    refine commits_of_carried (Carried.aside (fun runId => ?_) hu) ?_ ?_ ?_
    · exact ((hc.aside hw') runId).trans (carries_insertIntake hnew)
    · intro runId
      cases request <;> rfl
    · intro runId
      cases request <;> rfl
    · cases request <;> trivial

theorem instant_eq_ok {text : Timestamp} {ms : Int} (h : instant text = .ok ms) :
    instantMs text = some ms := by
  unfold instant at h
  cases hm : instantMs text with
  | none =>
    rw [hm] at h
    cases h
  | some ms' =>
    rw [hm] at h
    cases h
    rfl

theorem retryInstant_eq_ok {ms : Int} {next : Timestamp} (h : retryInstant ms = .ok next) :
    next = toISOString ms := by
  unfold retryInstant at h
  split at h
  · cases h
  split at h
  · cases h
  · exact (Except.ok.inj h).symm

theorem proper_recordCompletionFailure (runId : String) (expectedAttempt : ℤ) (errorCode : String)
    (failedAt : Timestamp) :
    Proper P policy (.recordCompletionFailure runId expectedAttempt errorCode failedAt)
      ((LocalRunIntakeStore.recordCompletionFailure policy runId expectedAttempt errorCode
        failedAt).bind fun r => .done (.ok (.retry r))) := by
  unfold LocalRunIntakeStore.recordCompletionFailure
  cases hinst : instant failedAt with
  | error e => exact proper_throw _ e
  | ok failedMs =>
  have hms := instant_eq_ok hinst
  refine proper_runInImmediateTransaction fun c => ?_
  unfold LocalRunIntakeStore.retryOrExhaust
  have hquiet : ∀ w ans, Carried P c w → (ans = .blocked ∨ ans = .stale) →
      BodyKeeps intakeDatabase (intakePractice P policy) (fun b w => TransactionCommits P policy
        (.recordCompletionFailure runId expectedAttempt errorCode failedAt) c w (some (.retry b)))
        (.pure ans) w := by
    intro w ans hc hans w' hw'
    refine commits_of_carried (hc.aside hw') (fun _ => rfl) (fun _ => rfl) ?_
    rcases hans with rfl | rfl
    · exact True.intro
    · exact True.intro
  refine bodyKeeps_step (fun w _ => IntakeDb.inside_of_intakes rfl) fun w row hw _ => ?_
  have hc : Carried P c w := fun runId => IntakeDb.Aside.carries hw runId
  split
  · exact hquiet _ _ hc (Or.inr rfl)
  split
  · exact hquiet _ _ hc (Or.inr rfl)
  split
  · exact hquiet _ _ hc (Or.inl rfl)
  split
  · next hmax =>
    refine bodyKeeps_step (fun w' _ => inside_exhaust hmax) fun w' _ hw' _ => ?_
    exact hquiet _ _ (fun runId' => ((hc.aside hw') runId').trans carries_exhaust) (Or.inl rfl)
  next hmax =>
  split
  · trivial
  next next hnext =>
  obtain rfl := retryInstant_eq_ok hnext
  rw [retryDelay_eq]
  refine bodyKeeps_step (fun w' _ => inside_schedule hms hmax) fun w' updated hw' _ => ?_
  have hc' : Carried P c (intakeDatabase.handle (.schedule runId expectedAttempt
      (expectedAttempt + 1) failedAt
      (toISOString (failedMs + backoff policy (expectedAttempt + 1))) errorCode) w').2 :=
    fun runId' => ((hc.aside hw') runId').trans carries_schedule
  split
  · exact fun u hu => commits_of_carried (hc'.aside hu) (fun _ => rfl) (fun _ => rfl)
      ⟨rfl, failedMs, hms, rfl⟩
  · exact hquiet _ _ hc' (Or.inr rfl)

/-- A row that awaits its completion had done so before others took their turns. -/
theorem awaiting_of_aside (ha : c.Aside w) {row : LocalRunIntakeRow}
    (hr : w.intakes.get runId = some row) (hs : row.completionState = .awaiting) :
    ∃ row', c.intakes.get runId = some row' ∧ row'.completionState = .awaiting := by
  obtain ⟨row', hr', hrel⟩ := ha.origin hr
  refine ⟨row', hr', ?_⟩
  rcases hrel.state with he | ⟨he, -⟩
  · exact he.symm.trans hs
  · exact he

/-- After the update of the run, its row has the result. -/
theorem run_finishRun {run : ExecutionRunRow} {completion : ExecutionCompletion}
    {completedAt : Timestamp} (hrun : w.runs.get runId = some run)
    (hs : ¬ (run.status ≠ .running ∧ (run.status ≠ completionRunStatus completion ∨
      run.completedAt ≠ some completedAt ∨ run.errorCode ≠ completionErrorCode completion))) :
    ∃ run', (intakeHandler (.finishRun runId (completionRunStatus completion) completedAt
        (completionErrorCode completion)) w).2.runs.get runId = some run' ∧
      run'.status = completionRunStatus completion ∧ run'.completedAt = some completedAt ∧
      run'.errorCode = completionErrorCode completion := by
  simp only [intakeHandler, Table.get_update, hrun, Option.map_some]
  refine ⟨_, rfl, ?_⟩
  split
  · exact ⟨rfl, rfl, rfl⟩
  · next h =>
    have hkey : run.runId = runId := Table.key_of_get hrun
    have hne : run.status ≠ .running := fun he => h (decide_eq_true ⟨hkey, he⟩)
    by_contra hcon
    refine hs ⟨hne, ?_⟩
    by_contra hall
    push Not at hall
    exact hcon hall

/-- What becomes of a run of which the result is there. -/
theorem applied_markApplied {q : CompletionInput} {hash : String} {row : LocalRunIntakeRow}
    (hhash : canonicalPayloadHash P q.completion.toValue = some hash)
    (hrow : w.intakes.get q.runId = some row)
    (hatt : row.completionAttempt = q.expectedAttempt)
    (hrun : ∃ run, w.runs.get q.runId = some run ∧ run.status = completionRunStatus q.completion ∧
      run.completedAt = some q.completedAt ∧ run.errorCode = completionErrorCode q.completion)
    (hna : row.completionState ≠ .applied) :
    ∃ row', (intakeHandler (.markApplied q.runId q.expectedAttempt hash q.completedAt)
        w).2.intakes.get q.runId = some row' ∧ row'.completionState ≠ .awaiting ∧
      (row'.completionState = .applied → (intakeHandler
        (.markApplied q.runId q.expectedAttempt hash q.completedAt) w).2.HasResult P q) := by
  have hkey : row.runId = q.runId := Table.key_of_get hrow
  have hget : (intakeHandler (.markApplied q.runId q.expectedAttempt hash q.completedAt)
      w).2.intakes.get q.runId = some (if LocalRunIntakeRow.awaits q.runId q.expectedAttempt row
        then row.applied hash q.completedAt else row) := by
    refine (get_updateIntakes (w := w)).trans ?_
    rw [hrow, Option.map_some]
  refine ⟨_, hget, ?_, fun hs => ⟨⟨_, hget, hs, ?_⟩, hrun⟩⟩
  · split
    · nofun
    · next h => exact fun hs => h (awaits_iff.mpr ⟨hkey, hs, hatt⟩)
  · split
    · exact ⟨hhash.symm, rfl⟩
    · next h =>
      rw [if_neg h] at hs
      exact absurd hs hna

theorem target_eq_some {row : CompletionTarget} (h : w.target runId = some row) :
    ∃ intake run, w.intakes.get runId = some intake ∧ w.runs.get runId = some run ∧
      row.completionState = intake.completionState ∧
      row.completionAttempt = intake.completionAttempt ∧ row.status = run.status ∧
      row.completedAt = run.completedAt ∧ row.errorCode = run.errorCode := by
  unfold IntakeDb.target at h
  obtain ⟨intake, hintake, h⟩ := Option.bind_eq_some_iff.mp h
  obtain ⟨run, hrun, h⟩ := Option.bind_eq_some_iff.mp h
  cases h
  exact ⟨intake, run, hintake, hrun, rfl, rfl, rfl, rfl, rfl⟩

/-- Only the answer that a completion was applied applies one. -/
theorem appliedTo_eq_none {q : CompletionInput} {result : LocalCompletionApplyResult}
    (h : result ≠ .applied) : appliedTo runId (.applyCompletion q, .apply result) = none := by
  cases result with
  | applied => exact absurd rfl h
  | _ => rfl

theorem appliedTo_applied {q q' : CompletionInput}
    (h : appliedTo runId (.applyCompletion q, .apply .applied) = some q') :
    q' = q ∧ q.runId = runId := by
  unfold appliedTo at h
  dsimp only at h
  split at h
  · next he => exact ⟨(Option.some.inj h).symm, he⟩
  · cases h

theorem runId_of_appliedTo {x : IntakeRequest × IntakeAnswer} {q : CompletionInput}
    (h : appliedTo runId x = some q) : q.runId = runId := by
  unfold appliedTo at h
  split at h
  · split at h
    · next he =>
      cases h
      exact he
    · cases h
  · cases h

theorem proper_applyCompletion (q : CompletionInput) :
    Proper P policy (.applyCompletion q)
      ((LocalRunIntakeStore.applyCompletion P q.runId q.expectedAttempt q.jobId q.jobSha256
        q.completion q.completedAt).bind fun r => .done (.ok (.apply r))) := by
  unfold LocalRunIntakeStore.applyCompletion
  cases hinst : instant q.completedAt with
  | error e => exact proper_throw _ e
  | ok ms =>
  refine proper_runInImmediateTransaction fun c => ?_
  unfold LocalRunIntakeStore.applyOrRefuse
  have hquiet : ∀ w ans, Carried P c w → ans ≠ .applied →
      BodyKeeps intakeDatabase (intakePractice P policy) (fun b w => TransactionCommits P policy
        (.applyCompletion q) c w (some (.apply b))) (.pure ans) w := by
    intro w ans hc hans w' hw'
    exact commits_of_carried (hc.aside hw') (fun _ => rfl) (fun _ => appliedTo_eq_none hans)
      True.intro
  refine bodyKeeps_step (fun w _ => IntakeDb.inside_of_intakes rfl) fun w row hw hrow => ?_
  have hc : Carried P c w := fun runId => IntakeDb.Aside.carries hw runId
  split
  · exact hquiet _ _ hc nofun
  · trivial
  next row hash hhash =>
  obtain ⟨intake, run, hintake, hrun, hstate, hatt, hstatus, hat, hcode⟩ :=
    target_eq_some (Except.ok.inj hrow)
  split
  · refine hquiet _ _ hc ?_
    split <;> nofun
  split
  · exact hquiet _ _ hc nofun
  next hne hguard =>
  split
  · exact hquiet _ _ hc nofun
  split
  · exact hquiet _ _ hc nofun
  next hconflict =>
  obtain ⟨hs, he⟩ : row.completionState = .awaiting ∧ row.completionAttempt = q.expectedAttempt := by
    simpa [not_or] using hguard
  refine bodyKeeps_step (fun w' _ => IntakeDb.inside_of_intakes rfl) fun w₁ _ hw₁ _ => ?_
  -- From here on the run has the result, and its intake is blocked at most.
  have hc₁ : Carried P c (intakeDatabase.handle (.finishRun q.runId
      (completionRunStatus q.completion) q.completedAt (completionErrorCode q.completion)) w₁).2 :=
    fun runId => ((hc.aside hw₁) runId).trans carries_finishRun
  have hresult : ∃ run', (intakeHandler (.finishRun q.runId (completionRunStatus q.completion)
      q.completedAt (completionErrorCode q.completion)) w₁).2.runs.get q.runId = some run' ∧
      run'.status = completionRunStatus q.completion ∧ run'.completedAt = some q.completedAt ∧
      run'.errorCode = completionErrorCode q.completion :=
    run_finishRun (hw₁.runs ▸ hrun) (by rwa [← hstatus, ← hat, ← hcode])
  refine bodyKeeps_step (fun w' _ => inside_markApplied) fun w₂ _ hw₂ _ => ?_
  obtain ⟨row₁, hrow₁, hrel₁⟩ := hw₁.present _ _ hintake
  obtain ⟨row₂, hrow₂, hrel₂⟩ := hw₂.present _ row₁ hrow₁
  have hrel := hrel₁.trans hrel₂
  have hna : row₂.completionState ≠ .applied := by
    intro hs'
    rcases hrel.state with h | ⟨-, h⟩
    · exact hne (hstate.trans (h.symm.trans hs'))
    · cases h.symm.trans hs'
  obtain ⟨row₃, hrow₃, hna₃, hres₃⟩ := applied_markApplied hhash hrow₂
    (hrel.attempt.trans (hatt.symm.trans he)) (by rw [hw₂.runs]; exact hresult) hna
  intro u hu
  refine ⟨?_, fun runId hnone => ?_, fun runId ans q' hans hq' => ?_, ?_⟩
  · rintro runId _ ⟨⟩
    rfl
  · have hrun : q.runId ≠ runId := by
      intro heq
      have := hnone _ rfl
      simp [appliedTo, heq] at this
    exact (((hc₁.aside hw₂) runId).trans (carries_markApplied hrun)).trans
      (IntakeDb.Aside.carries hu runId)
  · cases hans
    obtain ⟨rfl, rfl⟩ := appliedTo_applied hq'
    refine ⟨awaiting_of_aside hw hintake (hstate.symm.trans hs), ?_⟩
    obtain ⟨row₄, hrow₄, hrel₄⟩ := hu.present _ row₃ hrow₃
    refine ⟨row₄, hrow₄, fun hs' => ?_, fun hs' => ?_⟩
    · rcases hrel₄.state with h | ⟨-, h⟩
      · exact hna₃ (h.symm.trans hs')
      · cases h.symm.trans hs'
    · rcases hrel₄.state with h | ⟨-, h⟩
      · exact (hres₃ (h.symm.trans hs')).aside hu
      · cases h.symm.trans hs'
  · rintro _ ⟨⟩
    exact True.intro

end Bodies

end Qualigence.Sqlite
