import Qualigence.Local.Reconcile
import Qualigence.Sqlite.IntakeRuns

/-! # The completions of local runs are not lost

Every pass performs only operations that have a reason, so a run whose completion is on its way or
is there keeps awaiting it as long as fewer looks for it came to nothing than the retry policy
allows.
-/

namespace Qualigence.Local

open Foundation Protocol Sqlite
open Lease (RunnerControlDb RunnerCompletionRecord LeaseCall StoreError)

variable {P : Platform} {policy : LocalCompletionRetryPolicy} {w w' : LocalWorld}

/-! ## Candidates -/

/-- A candidate of a pass tells of an intake and of no more attempts than there were misses. -/
structure LocalRunCompletionCandidate.Known (c : LocalRunCompletionCandidate) (w : LocalWorld) :
    Prop where
  intake : w.Intakes c.runId c.jobId c.jobSha256
  attempts : c.expectedAttempt ≤ w.misses.count c.runId

/-- A look for the completion of the candidate came to nothing since it was selected. -/
def LocalRunCompletionCandidate.Missed (c : LocalRunCompletionCandidate) (w : LocalWorld) : Prop :=
  c.expectedAttempt + 1 ≤ w.misses.count c.runId

/-- What the `catch` of `reconcileCandidate` starts with. -/
structure Recoverable (P : Platform) (c : LocalRunCompletionCandidate) (w : LocalWorld)
    (e : LocalError) : Prop where
  known : c.Known w
  mismatched : e = .control .completionIdentityMismatch →
    w.Mismatched P c.runId c.jobId c.jobSha256
  missed : e ≠ .control .completionIdentityMismatch → c.Missed w

variable {c : LocalRunCompletionCandidate}

theorem LocalRunCompletionCandidate.Known.later (h : c.Known w) (hl : LocalLater P w w') :
    c.Known w' where
  intake := hl.intakes h.intake
  attempts := by
    have hle := hl.misses c.runId
    have := h.attempts
    omega

theorem LocalRunCompletionCandidate.Missed.later (h : c.Missed w) (hl : LocalLater P w w') :
    c.Missed w' := by
  have hle := hl.misses c.runId
  unfold LocalRunCompletionCandidate.Missed at h ⊢
  omega

theorem missed_miss (h : c.Known w) : c.Missed (w.miss c.runId) := by
  have hle := h.attempts
  have hcount : (w.miss c.runId).misses.count c.runId = w.misses.count c.runId + 1 := by
    simp [LocalWorld.miss]
  unfold LocalRunCompletionCandidate.Missed
  omega

theorem known_miss (h : c.Known w) : c.Known (w.miss c.runId) where
  intake := h.intake
  attempts := by
    have := missed_miss h
    unfold LocalRunCompletionCandidate.Missed at this
    omega

/-- The candidates of a pass are known. -/
theorem known_of_pendingCompletions (hinv : LocalInv P policy w) {now : Timestamp} {limit : ℕ}
    {cs : List LocalRunCompletionCandidate}
    (h : pendingCompletions now limit w.intake = .ok cs) : ∀ c ∈ cs, c.Known w := by
  unfold pendingCompletions at h
  obtain ⟨ms, -, h⟩ := bind_eq_ok.mp h
  split at h
  · cases h
  cases h
  intro c hc
  obtain ⟨row, hrow, rfl⟩ := List.mem_map.mp hc
  have hmem : row ∈ w.intake.intakes.rows :=
    List.mem_of_mem_filter (List.mem_mergeSort.mp (List.mem_of_mem_take hrow))
  have hget : w.intake.intakes.get row.runId = some row := Table.get_eq_some_iff.mpr ⟨hmem, rfl⟩
  exact ⟨⟨row, hget, rfl, rfl⟩, hinv.counted row.runId row hget⟩

/-! ## Answers of the intake store -/

/-- A request of the intake store fails with an error of the database, and the failure is a miss
where the request is about a completion. -/
theorem performIntake_error {request : IntakeRequest} {e : LocalError}
    (h : (performIntake P policy request w).1 = .error e) :
    (∃ f, e = .sqlite f) ∧ ∀ runId, missedBy request = some runId →
      ∃ db, (performIntake P policy request w).2 = { w with intake := db }.miss runId := by
  -- the reply is the one of the store, whatever becomes of the misses
  have hsplit : ∀ x : Except LocalError IntakeAnswer × IntakeDb,
      (∀ e, x.1 = .error e → ∃ f, e = .sqlite f) →
      ∀ y : Except LocalError IntakeAnswer × LocalWorld,
      y = settled request w x → y.1 = .error e →
      (∃ f, e = .sqlite f) ∧ ∀ runId, missedBy request = some runId →
        ∃ db, y.2 = { w with intake := db }.miss runId := by
    rintro ⟨r, db⟩ hx y rfl hy
    dsimp only [settled] at hx hy ⊢
    cases r with
    | ok a => cases hy
    | error e' =>
      cases hm : missedBy request with
      | none =>
        rw [hm] at hy
        cases hy
        refine ⟨hx _ rfl, ?_⟩
        rintro _ ⟨⟩
      | some runId =>
        rw [hm] at hy
        cases hy
        refine ⟨hx _ rfl, ?_⟩
        rintro _ ⟨⟩
        exact ⟨db, rfl⟩
  refine hsplit (if w.storageFails then (.error storageBusy, w.intake) else _) ?_ _ rfl h
  intro e he
  split at he
  · cases he
    exact ⟨_, rfl⟩
  · dsimp only at he
    cases hr : ((request.operation P policy).exec intakeHandler w.intake).1 with
    | ok a =>
      rw [hr] at he
      cases he
    | error f =>
      rw [hr] at he
      cases he
      exact ⟨f, rfl⟩

theorem performIntake_ok {request : IntakeRequest} {a : IntakeAnswer}
    (h : (performIntake P policy request w).1 = .ok a) :
    (answered P policy request w.intake).1 = .ok a := by
  have hsplit : ∀ x : Except LocalError IntakeAnswer × IntakeDb,
      (settled request w x).1 = .ok a → x.1 = .ok a := by
    rintro ⟨r, db⟩ hx
    dsimp only [settled] at hx ⊢
    split at hx
    · cases hx
    · exact hx
  have hx := hsplit (if w.storageFails then (.error storageBusy, w.intake) else _) h
  split at hx
  · cases hx
  · exact mapError_eq_ok.mp hx

/-- With the completion of the control store, the intake store finds no contradiction. -/
theorem performIntake_applyCompletion {q : CompletionInput} (hinv : LocalInv P policy w)
    (hp : LocalPermitted P w (.intake (.applyCompletion q))) {a : IntakeAnswer}
    (h : (performIntake P policy (.applyCompletion q) w).1 = .ok a) :
    a ≠ .apply .identityMismatch ∧ a ≠ .apply .completionConflict := by
  have ha := performIntake_ok h
  rcases answered_applyCompletion hinv hp with ⟨-, hb⟩ | ⟨hb, -⟩
  · rcases hb a ha with rfl | rfl
    · exact ⟨nofun, nofun⟩
    · exact ⟨nofun, nofun⟩
  · cases ha.symm.trans hb
    exact ⟨nofun, nofun⟩

/-- A look that does not find a completion is a miss. -/
def looked (w : LocalWorld) (runId : String)
    (r : Except LocalError (Option RunnerCompletionRecord)) :
    Except LocalError (Option RunnerCompletionRecord) × LocalWorld :=
  match r with
  | .ok (some record) => (.ok (some record), w)
  | r => (r, w.miss runId)

/-- A look for the completion of a run finds it, or it is a miss. -/
theorem performCompletionRecord_cases (w : LocalWorld) (runId : String) :
    (∃ record, w.record P runId = .ok (some record) ∧
      performCompletionRecord P runId w = (.ok (some record), w)) ∨
    performCompletionRecord P runId w = (.ok none, w.miss runId) ∨
    ∃ e, performCompletionRecord P runId w = (.error e, w.miss runId) ∧
      (e = .control .completionIdentityMismatch →
        w.record P runId = .error .completionIdentityMismatch) := by
  unfold performCompletionRecord
  cases hf : w.storageFails with
  | true =>
    refine Or.inr (Or.inr ⟨storageBusy, rfl, ?_⟩)
    rintro ⟨⟩
  | false =>
    change (∃ record, w.record P runId = .ok (some record) ∧
      looked w runId ((w.record P runId).mapError .control) = (.ok (some record), w)) ∨
      looked w runId ((w.record P runId).mapError .control) = (.ok none, w.miss runId) ∨
      ∃ e, looked w runId ((w.record P runId).mapError .control) = (.error e, w.miss runId) ∧
        (e = .control .completionIdentityMismatch →
          w.record P runId = .error .completionIdentityMismatch)
    rcases w.record P runId with e | (_ | record)
    · refine Or.inr (Or.inr ⟨.control e, rfl, ?_⟩)
      rintro ⟨⟩
      rfl
    · exact Or.inr (Or.inl rfl)
    · exact Or.inl ⟨record, rfl, rfl⟩

/-! ## A candidate -/

section Candidate

variable {hpol : policy.Valid}

/-- A candidate is assured to keep the discipline. -/
abbrev Kept (hpol : policy.Valid) {α : Type} (p : LocalProgram α) (w : LocalWorld) : Prop :=
  Program.Assured (localDiscipline P policy hpol) (fun _ _ => True) (fun _ _ => True) p w

abbrev KeptOr (hpol : policy.Valid) (c : LocalRunCompletionCandidate) {α : Type}
    (p : LocalProgram α) (w : LocalWorld) : Prop :=
  Program.AssuredOr (localDiscipline P policy hpol) (fun _ _ => True) (fun _ _ => True)
    (Recoverable P c) p w

open LocalRunCoordinator

theorem kept_call {op : LocalOp} {α : Type} {f : localSignature.Reply op → LocalProgram α}
    (hp : LocalPermitted P w op)
    (hf : ∀ t r, LocalInv P policy t → (localHandler P policy op t).1 = .ok r →
      LocalInv P policy (localHandler P policy op t).2 →
      Kept (P := P) hpol (f r) (localHandler P policy op t).2) :
    Kept (P := P) hpol (Program.bind (perform op) f) w := by
  refine ⟨hp, fun t hl ht _ => ?_⟩
  have hnext := ((localDiscipline P policy hpol).keeps op t (hl.permitted hp) ht).1
  cases he : (localHandler P policy op t).1 with
  | ok r => exact hf t r ht he hnext
  | error e => trivial

/-- Reading the clock does not fail. -/
theorem assuredOr_now {β : Type} {post : LocalWorld → β → Prop}
    {raised : LocalWorld → LocalError → Prop} {f : Timestamp → LocalProgram β}
    (hinv : LocalInv P policy w)
    (hf : ∀ t now, LocalInv P policy t → LocalLater P w t →
      Program.AssuredOr (localDiscipline P policy hpol) (fun _ _ => True) post raised (f now) t) :
    Program.AssuredOr (localDiscipline P policy hpol) (fun _ _ => True) post raised
      (Program.bind (perform .now) f) w := by
  refine Program.assuredOr_bind (M := fun t _ => LocalLater P w t) hinv
    (Program.assuredOr_perform (S := localSignature) .now trivial ?_ ?_) fun t now ht hl => hf t now ht hl
  · exact fun t _ hl _ _ _ => hl
  · nofun

theorem assuredOr_intake {request : IntakeRequest} {β : Type} {post : LocalWorld → β → Prop}
    {raised : LocalWorld → LocalError → Prop} {f : IntakeAnswer → LocalProgram β}
    (hinv : LocalInv P policy w) (hp : LocalPermitted P w (.intake request))
    (hf : ∀ t u a, LocalLater P w t → LocalInv P policy t →
      (performIntake P policy request t).1 = .ok a → LocalLater P t u → LocalInv P policy u →
      Program.AssuredOr (localDiscipline P policy hpol) (fun _ _ => True) post raised (f a) u)
    (he : ∀ t e, LocalLater P w t → LocalInv P policy t →
      (performIntake P policy request t).1 = .error e →
      LocalLater P t (performIntake P policy request t).2 →
      raised (performIntake P policy request t).2 e) :
    Program.AssuredOr (localDiscipline P policy hpol) (fun _ _ => True) post raised
      (Program.bind (perform (.intake request)) f) w := by
  have hkeeps : ∀ t, LocalLater P w t → LocalInv P policy t → _ := fun t hl ht =>
    keeps_performIntake hpol ht request (LocalLater.permitted hl hp)
  refine Program.assuredOr_bind (M := fun u a => ∃ t, LocalLater P w t ∧ LocalInv P policy t ∧
      (performIntake P policy request t).1 = .ok a ∧ LocalLater P t u) hinv ?_ ?_
  · refine Program.assuredOr_perform (S := localSignature) (.intake request) hp ?_ ?_
    · exact fun t a hl ht _ ha => ⟨t, hl, ht, ha, (hkeeps t hl ht).2⟩
    · exact fun t e hl ht _ h => he t e hl ht h (hkeeps t hl ht).2
  · rintro u a hu ⟨t, hl, ht, ha, hlu⟩
    exact hf t u a hl ht ha hlu hu

/-- After a failed request about the completion of a candidate, a failure may be recorded. -/
theorem recoverable_of_error {request : IntakeRequest} (hc : c.Known w) {e : LocalError}
    (hr : missedBy request = some c.runId) (h : (performIntake P policy request w).1 = .error e)
    (hl : LocalLater P w (performIntake P policy request w).2) :
    Recoverable P c (performIntake P policy request w).2 e := by
  obtain ⟨⟨f, rfl⟩, hmiss⟩ := performIntake_error h
  obtain ⟨db, hdb⟩ := hmiss c.runId hr
  refine ⟨hc.later hl, nofun, fun _ => ?_⟩
  have hcount : (performIntake P policy request w).2.misses.count c.runId =
      w.misses.count c.runId + 1 := by
    rw [hdb]
    simp [LocalWorld.miss]
  have hle := hc.attempts
  unfold LocalRunCompletionCandidate.Missed
  omega

theorem keptOr_markBlocked (hinv : LocalInv P policy w) (hc : c.Known w)
    (hm : w.Mismatched P c.runId c.jobId c.jobSha256) (errorCode : String) :
    KeptOr (P := P) hpol c (markBlocked c errorCode) w := by
  refine assuredOr_now hinv fun t now ht hl => ?_
  refine assuredOr_intake ht ?_ (fun _ _ _ _ _ _ _ _ => trivial) ?_
  · exact ⟨c.jobId, c.jobSha256, (hc.later hl).intake, hl.mismatched hm⟩
  · exact fun u e hlu _ he => recoverable_of_error ((hc.later hl).later hlu) rfl he

theorem keptOr_recordFailure (hinv : LocalInv P policy w) (hc : c.Known w) (hm : c.Missed w)
    (errorCode : String) : KeptOr (P := P) hpol c (recordFailure c errorCode) w := by
  refine assuredOr_now hinv fun t now ht hl => ?_
  refine assuredOr_intake ht (hm.later hl) (fun _ _ _ _ _ _ _ _ => trivial) ?_
  intro u e hlu _ he hlater
  obtain ⟨⟨f, rfl⟩, -⟩ := performIntake_error he
  have hlast : LocalLater P w _ := (hl.trans hlu).trans hlater
  exact ⟨hc.later hlast, nofun, fun _ => hm.later hlast⟩

/-- The `catch` of `reconcileCandidate` blocks or counts with a reason. -/
theorem kept_recover {e : LocalError} (hinv : LocalInv P policy w) (hr : Recoverable P c w e)
    (observed : Bool) : Kept (P := P) hpol (recover c observed e) w := by
  have hrecord : c.Missed w → ∀ errorCode, Kept (P := P) hpol (Program.bind
      (recordFailure c errorCode) fun blocked => .pure (CoordinatorHealth.mk false blocked)) w :=
    fun hm errorCode => Program.assured_bind hinv
      (keptOr_recordFailure hinv hr.known hm errorCode).assured fun _ _ _ _ => trivial
  unfold recover
  split
  · exact Program.assured_bind hinv
      (keptOr_markBlocked hinv hr.known (hr.mismatched rfl) _).assured fun _ _ _ _ => trivial
  · next hne => exact hrecord (hr.missed fun h => hne h) _

theorem keptOr_reconcilePending (hinv : LocalInv P policy w) (hc : c.Known w) (hm : c.Missed w) :
    KeptOr (P := P) hpol c (reconcilePending c) w :=
  Program.assuredOr_bind hinv (keptOr_recordFailure hinv hc hm _) fun _ _ _ _ => trivial

theorem keptOr_reconcileObserved (hinv : LocalInv P policy w) (hc : c.Known w)
    {record : RunnerCompletionRecord} (hrec : w.record P c.runId = .ok (some record)) :
    KeptOr (P := P) hpol c (reconcileObserved c record) w := by
  have hblock : w.Mismatched P c.runId c.jobId c.jobSha256 → KeptOr (P := P) hpol c
      (Program.bind (markBlocked c "CompletionIdentityMismatch") fun _ =>
        .pure (CoordinatorHealth.mk true true)) w :=
    fun hm => Program.assuredOr_bind hinv (keptOr_markBlocked hinv hc hm _) fun _ _ _ _ => trivial
  -- a record of another job is a mismatch
  have hmis : (record.jobId = c.jobId → record.jobSha256 ≠ some c.jobSha256) →
      w.Mismatched P c.runId c.jobId c.jobSha256 := by
    refine fun hne => ⟨stored_of_record hrec, ?_⟩
    rintro ⟨record', hrec', hj, hs⟩
    cases hrec.symm.trans hrec'
    exact hne hj hs
  unfold reconcileObserved
  split
  · next hnone => exact hblock (hmis fun _ h => nomatch hnone.symm.trans h)
  next jobSha256 hsome =>
  split
  · next hne =>
    refine hblock (hmis fun hj hs => ?_)
    rcases hne with hne | hne
    · exact hne hj.symm
    · exact hne (Option.some.inj (hs.symm.trans hsome))
  next heq =>
  simp only [not_or, not_not] at heq
  obtain ⟨hj, hs⟩ := heq
  refine assuredOr_intake hinv ⟨⟨record, hrec, rfl, hsome, rfl, rfl⟩, ?_⟩ ?_ ?_
  · rw [← hj, ← hs]
    exact hc.intake
  · intro t u a hl ht ha _ _
    have hp : LocalPermitted P t (.intake (.applyCompletion ⟨c.runId, c.expectedAttempt,
        record.jobId, jobSha256, record.completion, record.completedAt⟩)) := by
      refine hl.permitted ⟨⟨record, hrec, rfl, hsome, rfl, rfl⟩, ?_⟩
      rw [← hj, ← hs]
      exact hc.intake
    obtain ⟨hid, hconf⟩ := performIntake_applyCompletion ht hp ha
    rw [if_neg hid, if_neg hconf]
    trivial
  · exact fun t e hl _ he => recoverable_of_error (hc.later hl) rfl he

theorem kept_reconcileCandidate (hinv : LocalInv P policy w) (hc : c.Known w) :
    Kept (P := P) hpol (reconcileCandidate c) w := by
  -- what a look for the completion tells
  let looked : LocalWorld → Except LocalError (Option RunnerCompletionRecord) → Prop :=
    fun t r => c.Known t ∧ match r with
      | .ok (some record) => t.record P c.runId = .ok (some record)
      | .ok none => c.Missed t
      | .error e => Recoverable P c t e
  refine Program.assured_bind (M := looked) hinv (Program.assured_attempt_perform
    (S := localSignature) (.completionRecord c.runId) trivial ?_) ?_
  · intro t hl _ _
    have hct := hc.later hl
    have hmissed := missed_miss hct
    have hknown := known_miss hct
    change looked (performCompletionRecord P c.runId t).2 (performCompletionRecord P c.runId t).1
    rcases performCompletionRecord_cases (P := P) t c.runId with
      ⟨record, hrec, h⟩ | h | ⟨e, h, he⟩ <;> rw [h]
    · exact ⟨hct, hrec⟩
    · exact ⟨hknown, hmissed⟩
    · refine ⟨hknown, hknown, fun heq => ?_, fun _ => hmissed⟩
      have hrec := he heq
      refine ⟨stored_of_mismatch hrec, ?_⟩
      rintro ⟨record, hrec', -⟩
      cases hrec.symm.trans hrec'
  · rintro t r ht ⟨hct, hr⟩
    split
    · exact kept_recover ht hr false
    · exact Program.assured_tryCatch_raised ht (keptOr_reconcilePending ht hct hr)
        fun u e hu hrec => kept_recover hu hrec false
    · exact Program.assured_tryCatch_raised ht (keptOr_reconcileObserved ht hct hr)
        fun u e hu hrec => kept_recover hu hrec true

theorem kept_reconcileAll {cs : List LocalRunCompletionCandidate} {passHealthy : Bool}
    (hinv : LocalInv P policy w) (hcs : ∀ c ∈ cs, c.Known w) :
    Kept (P := P) hpol (reconcileAll cs passHealthy) w := by
  induction cs generalizing w passHealthy with
  | nil => trivial
  | cons c cs ih =>
    have hknown : ∀ t, LocalLater P w t → ∀ c' ∈ cs, c'.Known t :=
      fun t hl c' hc' => (hcs c' (List.mem_cons_of_mem c hc')).later hl
    refine Program.assured_bind_later hinv (kept_reconcileCandidate hinv
      (hcs c List.mem_cons_self)) fun t health ht hl _ => ?_
    exact ih ht (hknown t hl)

theorem kept_reconciliationPass (o : LocalRunCoordinatorOptions) :
    Kept (P := P) hpol (reconciliationPass o) w := by
  refine kept_call trivial fun t now _ _ _ => kept_call trivial fun u cs hu hcs _ => ?_
  have hworld : (localHandler P policy (.pendingCompletions now o.batchSize) u).2 = u := by
    simp only [localHandler]
    split <;> rfl
  have hknown : ∀ c ∈ cs, c.Known u := by
    simp only [localHandler] at hcs
    split at hcs
    · cases hcs
    · exact known_of_pendingCompletions hu (mapError_eq_ok.mp hcs)
  rw [hworld]
  refine Program.assured_bind hu (kept_reconcileAll hu hknown) fun v passHealthy _ _ => ?_
  exact kept_call trivial fun _ _ _ _ _ => trivial

end Candidate

/-! ## Requests -/

section Requests

open LocalRunCoordinator

/-- Operations that are permitted in every state. -/
def Harmless (P : Platform) (op : LocalOp) : Prop := ∀ w, LocalPermitted P w op

theorem harmless_bind {op : LocalOp} {α : Type} {f : localSignature.Reply op → LocalProgram α}
    (hop : Harmless P op) (hf : ∀ r, (f r).Uses (Harmless P)) :
    (Program.bind (perform op) f).Uses (Harmless P) :=
  Program.uses_bind (Program.uses_perform hop) hf

theorem harmless_offerPending (pending : LocalRunDispatch) :
    (offerPending pending).Uses (Harmless P) :=
  Program.uses_tryCatch
    (harmless_bind (fun _ => trivial) fun _ => harmless_bind (fun _ => trivial) fun _ =>
      harmless_bind (fun _ => trivial) fun _ => trivial)
    fun _ => harmless_bind (fun _ => trivial) fun _ =>
      harmless_bind (fun _ => trivial) fun _ => trivial

theorem harmless_dispatchPending (o : LocalRunCoordinatorOptions) (pending : LocalRunDispatch) :
    (dispatchPending o pending).Uses (Harmless P) := by
  refine harmless_bind (fun _ => trivial) fun connection => ?_
  split
  · trivial
  split
  · trivial
  refine harmless_bind (fun _ => trivial) fun _ => harmless_bind (fun _ => trivial) fun begun => ?_
  split
  · exact harmless_offerPending pending
  · trivial

theorem harmless_dispatchPass (o : LocalRunCoordinatorOptions) :
    (dispatchPass o).Uses (Harmless P) := by
  refine harmless_bind (fun _ => trivial) fun pending => ?_
  induction pending with
  | nil => trivial
  | cons p pending ih => exact Program.uses_bind (harmless_dispatchPending o p) fun _ => ih

theorem kept_of_harmless {hpol : policy.Valid} {α : Type} {p : LocalProgram α}
    (hp : p.Uses (Harmless P)) (w : LocalWorld) : Kept (P := P) hpol p w :=
  Program.assured_of_uses (Q := fun _ => True) (fun s _ h => h s) (fun _ _ _ _ => trivial) hp
    trivial

theorem kept_body (hpol : policy.Valid) (o : LocalRunCoordinatorOptions) (r : LocalRequest)
    (hinv : LocalInv P policy w) : Kept (P := P) hpol (r.body o) w := by
  cases r with
  | create job =>
    have hcreate : (LocalRequest.body o (.create job)).Uses (Harmless P) :=
      harmless_bind (fun _ => trivial) fun _ => harmless_bind (fun _ => trivial) fun _ => trivial
    exact kept_of_harmless hcreate w
  | startup =>
    have hquarantine : quarantine.Uses (Harmless P) :=
      harmless_bind (fun _ => trivial) fun _ => harmless_bind (fun _ => trivial) fun _ => trivial
    refine Program.assured_bind hinv (kept_of_harmless hquarantine w) fun t _ _ _ => ?_
    refine kept_call trivial fun u _ _ _ hu => ?_
    exact Program.assured_bind hu (kept_reconciliationPass o) fun _ _ _ _ => trivial
  | dispatchPass => exact kept_of_harmless (harmless_dispatchPass o) w
  | reconciliationPass =>
    exact Program.assured_bind hinv (kept_reconciliationPass o) fun _ _ _ _ => trivial
  | surroundings change =>
    have hchange : (LocalRequest.body o (.surroundings change)).Uses (Harmless P) :=
      Program.uses_perform fun _ => trivial
    exact kept_of_harmless hchange w

end Requests

/-! ## Runs -/

/-- The world after requests that took turns, from an empty one. -/
def worldAfter (P : Platform) (policy : LocalCompletionRetryPolicy)
    (o : LocalRunCoordinatorOptions) (now : Timestamp) (turns : List (Turn LocalRequest)) :
    LocalWorld :=
  (Pool.runs (localHandler P policy) (LocalRequest.body o) ⟨.initial now, []⟩ turns).shared

theorem localInv_worldAfter (hpol : policy.Valid) (o : LocalRunCoordinatorOptions)
    (now : Timestamp) (turns : List (Turn LocalRequest)) :
    LocalInv P policy (worldAfter P policy o now turns) := by
  have hsound : Pool.Sound (localDiscipline P policy hpol) (fun _ _ _ => True)
      (fun _ _ (_ : Unit) => True) (⟨.initial now, []⟩ : Pool _ _ _ _ LocalRequest) :=
    ⟨localInv_initial now, fun _ h => absurd h List.not_mem_nil⟩
  exact (hsound.runs (fun _ _ _ _ _ _ _ => trivial) (fun r _ hw => kept_body hpol o r hw)
    (Pool.allAllowed_of_forall (fun _ _ _ => trivial) _ turns)).1

/-- The completion of a live lease is not stored yet. -/
theorem not_stored_of_live (hinv : LocalInv P policy w) {runId : String} (hl : w.Live runId) :
    ¬ w.Stored runId := by
  intro hs
  obtain ⟨lease, hlease, -, hnone, -⟩ := hl
  obtain ⟨row, hrow⟩ := Option.isSome_iff_exists.mp hs
  obtain ⟨lease', hlease', hsome, -⟩ := hinv.linked ((), runId) row hrow
  cases hlease.symm.trans hlease'
  rw [hnone] at hsome
  cases hsome

/-- A run with a live lease, or with the completion of its job in the control store, is not
blocked, and its retries are not exhausted before as many looks for its completion came to nothing
as the policy allows. -/
theorem completion_awaited (hpol : policy.Valid) (o : LocalRunCoordinatorOptions)
    (now : Timestamp) (turns : List (Turn LocalRequest)) (runId : String)
    (row : LocalRunIntakeRow)
    (hrow : (worldAfter P policy o now turns).intake.intakes.get runId = some row)
    (hdue : (worldAfter P policy o now turns).Live runId ∨
      (worldAfter P policy o now turns).Holds P runId row.jobId row.jobSha256) :
    row.completionState ≠ .integrityBlocked ∧
      ((worldAfter P policy o now turns).misses.count runId < policy.maximumAttempts →
        row.completionState = .awaiting ∨ row.completionState = .applied) := by
  have hinv := localInv_worldAfter (P := P) hpol o now turns
  have hblocked : row.completionState ≠ .integrityBlocked := by
    intro hb
    obtain ⟨hs, hne⟩ := hinv.blocked runId row hrow hb
    rcases hdue with hl | hh
    · exact not_stored_of_live hinv hl hs
    · exact hne hh
  refine ⟨hblocked, fun hlt => ?_⟩
  have hexhausted : row.completionState ≠ .retryExhausted := by
    intro he
    have hmax := (hinv.valid runId row hrow).exhausted.mp he
    have hle := hinv.counted runId row hrow
    omega
  cases hs : row.completionState with
  | awaiting => exact Or.inl rfl
  | applied => exact Or.inr rfl
  | integrityBlocked => exact absurd hs hblocked
  | retryExhausted => exact absurd hs hexhausted

/-- A request from its arrival to its end, as the thread `i`. -/
def inFull (i : ℕ) (r : LocalRequest) : List (Turn LocalRequest) :=
  .spawn r :: List.replicate 16 (.advance i)

def localRunner : AuthenticatedRunner :=
  ⟨"runner", true, webPlaywrightV1RequiredCapabilities⟩

/-- A run is created, offered and leased for 30 seconds. -/
def leasedTurns : List (Turn LocalRequest) :=
  inFull 0 (.create (sampleJob "job" "run")) ++
    inFull 1 (.surroundings (.connection (some localRunner))) ++ inFull 2 .dispatchPass ++
    inFull 3 (.surroundings (.lease (.grantLease (Lease.sampleGrant none none))))

/-- Five reconciliation passes in the next 15 seconds, each as soon as a retry is due. -/
def impatientTurns : List (Turn LocalRequest) :=
  leasedTurns ++ inFull 4 .reconciliationPass ++
    inFull 5 (.surroundings (.clock "2026-01-01T00:00:01.000Z")) ++ inFull 6 .reconciliationPass ++
    inFull 7 (.surroundings (.clock "2026-01-01T00:00:03.000Z")) ++ inFull 8 .reconciliationPass ++
    inFull 9 (.surroundings (.clock "2026-01-01T00:00:07.000Z")) ++ inFull 10 .reconciliationPass ++
    inFull 11 (.surroundings (.clock "2026-01-01T00:00:15.000Z")) ++ inFull 12 .reconciliationPass

def localOptions : LocalRunCoordinatorOptions := ⟨"runner", 16⟩

/-- The intake, the lease and the clock of the run satisfy a condition. -/
def LocalWorld.runMeets (w : LocalWorld)
    (p : LocalRunIntakeRow → Lease.LeaseRow Unit → Bool) : Bool :=
  match w.intake.intakes.get "run", w.control.leases.get ((), "run") with
  | some row, some lease => p row lease
  | _, _ => false

theorem exists_of_runMeets {p : LocalRunIntakeRow → Lease.LeaseRow Unit → Bool}
    (h : w.runMeets p) : ∃ row lease, w.intake.intakes.get "run" = some row ∧
      w.control.leases.get ((), "run") = some lease ∧ p row lease := by
  unfold LocalWorld.runMeets at h
  split at h
  · next row lease hrow hlease => exact ⟨row, lease, hrow, hlease, h⟩
  · cases h

/-- The retries of a run with a live lease run out. -/
theorem slow_run_exhausted : ¬ ∀ (policy : LocalCompletionRetryPolicy) (_ : policy.Valid)
    (turns : List (Turn LocalRequest)) (runId : String) (row : LocalRunIntakeRow),
    (worldAfter samplePlatform policy localOptions intakeTime turns).intake.intakes.get runId =
      some row →
    (worldAfter samplePlatform policy localOptions intakeTime turns).Live runId →
    row.completionState = .awaiting ∨ row.completionState = .applied := by
  intro h
  have hmeets : (worldAfter samplePlatform sampleRetryPolicy localOptions intakeTime
      impatientTurns).runMeets fun row lease =>
        row.completionState = .retryExhausted ∧ lease.lostAt = none ∧ lease.completedAt = none ∧
          "2026-01-01T00:00:15.000Z" < lease.expiresAt := by decide +kernel
  have hnow : (worldAfter samplePlatform sampleRetryPolicy localOptions intakeTime
      impatientTurns).now = "2026-01-01T00:00:15.000Z" := by decide +kernel
  obtain ⟨row, lease, hrow, hlease, hp⟩ := exists_of_runMeets hmeets
  obtain ⟨hs, hlost, hcompleted, hexpires⟩ := of_decide_eq_true hp
  rcases h sampleRetryPolicy sampleRetryPolicy_valid impatientTurns "run" row hrow
    ⟨lease, hlease, hlost, hcompleted, hnow ▸ hexpires⟩ with he | he
  · cases hs.symm.trans he
  · cases hs.symm.trans he

/-- A run that is leased keeps awaiting its completion after one pass that finds none. -/
theorem leased_run_awaited : ∃ row lease, row.completionState ≠ .integrityBlocked ∧
    (row.completionState = .awaiting ∨ row.completionState = .applied) ∧
    lease.lostAt = none ∧
    (worldAfter samplePlatform sampleRetryPolicy localOptions intakeTime
      (leasedTurns ++ inFull 4 .reconciliationPass)).intake.intakes.get "run" = some row ∧
    (worldAfter samplePlatform sampleRetryPolicy localOptions intakeTime
      (leasedTurns ++ inFull 4 .reconciliationPass)).control.leases.get ((), "run") =
        some lease := by
  have hmeets : (worldAfter samplePlatform sampleRetryPolicy localOptions intakeTime
      (leasedTurns ++ inFull 4 .reconciliationPass)).runMeets fun _ lease =>
        lease.lostAt = none ∧ lease.completedAt = none ∧ intakeTime < lease.expiresAt := by
    decide +kernel
  have hnow : (worldAfter samplePlatform sampleRetryPolicy localOptions intakeTime
      (leasedTurns ++ inFull 4 .reconciliationPass)).now = intakeTime := by decide +kernel
  have hmisses : (worldAfter samplePlatform sampleRetryPolicy localOptions intakeTime
      (leasedTurns ++ inFull 4 .reconciliationPass)).misses.count "run" <
        sampleRetryPolicy.maximumAttempts := by decide +kernel
  obtain ⟨row, lease, hrow, hlease, hp⟩ := exists_of_runMeets hmeets
  obtain ⟨hlost, hcompleted, hexpires⟩ := of_decide_eq_true hp
  have hlive : (worldAfter samplePlatform sampleRetryPolicy localOptions intakeTime
      (leasedTurns ++ inFull 4 .reconciliationPass)).Live "run" := by
    refine ⟨lease, hlease, hlost, hcompleted, ?_⟩
    rw [hnow]
    exact hexpires
  obtain ⟨hne, hwait⟩ := completion_awaited sampleRetryPolicy_valid localOptions intakeTime
    (leasedTurns ++ inFull 4 .reconciliationPass) "run" row hrow (Or.inl hlive)
  exact ⟨row, lease, hne, hwait hmisses, hlost, hrow, hlease⟩

end Qualigence.Local
