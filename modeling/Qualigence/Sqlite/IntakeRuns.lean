import Qualigence.Sqlite.IntakeStates

/-! # Histories of the intake store

The eight operations of the intake store keep to one practice, and every history of them, in which
no rollback takes back what another operation wrote, keeps the laws of the intake.
-/

namespace Qualigence.Sqlite

open Foundation Protocol

variable {P : Platform} {policy : LocalCompletionRetryPolicy}

theorem proper_operation (hp : policy.Valid) (request : IntakeRequest) :
    Proper P policy request (request.operation P policy) := by
  cases request with
  | create job createdAt => exact proper_create hp job createdAt
  | beginOffer runId expectedAttempt startedAt => exact proper_beginOffer _ _ _
  | markOffered runId expectedAttempt offeredAt =>
    exact proper_finishDispatch _ runId expectedAttempt offeredAt none nofun
  | markOfferOutcomeUnknown runId expectedAttempt failedAt errorCode =>
    exact proper_finishDispatch _ runId expectedAttempt failedAt _ nofun
  | quarantineInterruptedDispatches quarantinedAt => exact proper_quarantine _ quarantinedAt
  | recordCompletionFailure runId expectedAttempt errorCode failedAt =>
    exact proper_recordCompletionFailure runId expectedAttempt errorCode failedAt
  | applyCompletion q => exact proper_applyCompletion q
  | markIntegrityBlocked runId expectedAttempt errorCode blockedAt =>
    exact proper_markIntegrityBlocked _ runId expectedAttempt errorCode blockedAt

theorem intakeHandler_read (op : IntakeStatement) (db : IntakeDb) (h : op.isWrite = false) :
    (intakeHandler op db).2 = db := by
  cases op with
  | selectCompletion runId => rfl
  | selectTarget runId => rfl
  | selectState runId => rfl
  | _ => cases h

/-! ## The invariant -/

/-- What the answers given so far say about the database. -/
structure IntakeInv (P : Platform) (policy : LocalCompletionRetryPolicy)
    (given : List (IntakeRequest × IntakeAnswer)) (s : View IntakeDb) : Prop where
  validCommitted : s.committed.Valid policy
  validVisible : s.visible.Valid policy
  anchored : s.foreign = false → ∀ runId row, s.visible.intakes.get runId = some row →
    row.dispatchState ≠ .pendingRunner →
    ∃ row', s.committed.intakes.get runId = some row' ∧ row'.dispatchState = row.dispatchState
  ahead : ∀ runId row, s.committed.intakes.get runId = some row →
    row.completionState ≠ .awaiting →
    ∃ row', s.visible.intakes.get runId = some row' ∧ row'.completionState = row.completionState
  once : ∀ runId, given.countP (begins runId) ≤ 1
  begun : ∀ runId, 0 < given.countP (begins runId) → s.visible.Begun runId
  fresh : ∀ runId, (∀ row, s.committed.intakes.get runId = some row →
    row.completionState = .awaiting) → given.filterMap (appliedTo runId) = []
  applied : ∀ runId row, s.committed.intakes.get runId = some row →
    row.completionState = .applied →
    ∃ q, given.filterMap (appliedTo runId) = [q] ∧ s.committed.HasResult P q
  scheduled : ∀ x ∈ given, ScheduledRight policy x

theorem get_initial (runId : String) (row : LocalRunIntakeRow) :
    IntakeDb.initial.intakes.get runId ≠ some row := fun h => List.not_mem_nil (Table.mem_of_get h)

theorem intakeInv_initial :
    IntakeInv P policy [] ⟨IntakeDb.initial, IntakeDb.initial, false⟩ where
  validCommitted _ _ h := absurd h (get_initial _ _)
  validVisible _ _ h := absurd h (get_initial _ _)
  anchored _ _ _ h := absurd h (get_initial _ _)
  ahead _ _ h := absurd h (get_initial _ _)
  once _ := Nat.zero_le 1
  begun _ h := absurd h (lt_irrefl 0)
  fresh _ _ := rfl
  applied _ _ h := absurd h (get_initial _ _)
  scheduled _ h := absurd h List.not_mem_nil

section Answers

variable {given : List (IntakeRequest × IntakeAnswer)} {request : IntakeRequest}
  {a : Option IntakeAnswer} {v v' c : IntakeDb} {runId : String}

theorem filterMap_answers (h : ∀ ans, a = some ans → appliedTo runId (request, ans) = none) :
    (given ++ (a.map (request, ·)).toList).filterMap (appliedTo runId) =
      given.filterMap (appliedTo runId) := by
  rw [List.filterMap_append]
  cases a with
  | none => simp
  | some ans => simp [h ans rfl]

theorem countP_answers (h : ∀ ans, a = some ans → begins runId (request, ans) = false) :
    (given ++ (a.map (request, ·)).toList).countP (begins runId) =
      given.countP (begins runId) := by
  rw [List.countP_append]
  cases a with
  | none => simp
  | some ans => simp [h ans rfl]

theorem scheduled_answers (hg : ∀ x ∈ given, ScheduledRight policy x)
    (h : ∀ ans, a = some ans → ScheduledRight policy (request, ans)) :
    ∀ x ∈ given ++ (a.map (request, ·)).toList, ScheduledRight policy x := by
  intro x hx
  rcases List.mem_append.mp hx with hx | hx
  · exact hg x hx
  · cases a with
    | none => cases hx
    | some ans =>
      obtain rfl := List.mem_singleton.mp hx
      exact h ans rfl

theorem IntakeDb.Begun.aside (h : v.Begun runId) (ha : v.Aside v') : v'.Begun runId := by
  obtain ⟨row, hrow, hs⟩ := h
  obtain ⟨row', hrow', hrel⟩ := ha.present runId row hrow
  exact ⟨row', hrow', hrel.begun hs⟩

/-- A statement outside of transactions begins an offer of a run at most once. -/
theorem begun_answers (ha : StatementAlone policy request v v' a)
    (honce : given.countP (begins runId) ≤ 1)
    (hbegun : 0 < given.countP (begins runId) → v.Begun runId) :
    (given ++ (a.map (request, ·)).toList).countP (begins runId) ≤ 1 ∧
      (0 < (given ++ (a.map (request, ·)).toList).countP (begins runId) → v'.Begun runId) := by
  by_cases hb : ∃ ans, a = some ans ∧ begins runId (request, ans) = true
  · obtain ⟨ans, rfl, hb⟩ := hb
    obtain ⟨⟨row, hrow, hpend⟩, hbegun'⟩ := ha.begins runId ans rfl hb
    have hzero : given.countP (begins runId) = 0 := by
      by_contra hne
      obtain ⟨row', hrow', hs⟩ := hbegun (Nat.pos_of_ne_zero hne)
      cases hrow.symm.trans hrow'
      exact hs hpend
    refine ⟨?_, fun _ => hbegun'⟩
    rw [List.countP_append, hzero]
    simp [hb]
  · have hno : ∀ ans, a = some ans → begins runId (request, ans) = false := by
      intro ans hans
      by_contra hne
      exact hb ⟨ans, hans, by simpa using hne⟩
    rw [countP_answers hno]
    exact ⟨honce, fun hpos => (hbegun hpos).aside ha.aside⟩

end Answers

section Step

variable {given : List (IntakeRequest × IntakeAnswer)}

theorem IntakeInv.alone {request : IntakeRequest} {a : Option IntakeAnswer} {c v v' : IntakeDb}
    {f f' : Bool} (h : IntakeInv P policy given ⟨c, v, f⟩)
    (ha : StatementAlone policy request v v' a) (hf : f' = true ∨ v' = v ∧ f' = f) :
    IntakeInv P policy (given ++ (a.map (request, ·)).toList) ⟨c, v', f'⟩ where
  validCommitted := h.validCommitted
  validVisible := ha.aside.valid h.validVisible
  anchored hf' := by
    rcases hf with hf | ⟨rfl, rfl⟩
    · cases hf.symm.trans hf'
    · exact h.anchored hf'
  ahead runId row hrow hs := by
    obtain ⟨row', hrow', hs'⟩ := h.ahead runId row hrow hs
    obtain ⟨row'', hrow'', hrel⟩ := ha.aside.present runId row' hrow'
    refine ⟨row'', hrow'', ?_⟩
    rcases hrel.state with he | ⟨he, -⟩
    · exact he.trans hs'
    · exact absurd (hs'.symm.trans he) hs
  once runId := (begun_answers ha (h.once runId) (h.begun runId)).1
  begun runId := (begun_answers ha (h.once runId) (h.begun runId)).2
  fresh runId hall := by
    rw [filterMap_answers fun ans => ha.applies runId ans]
    exact h.fresh runId hall
  applied runId row hrow hs := by
    rw [filterMap_answers fun ans => ha.applies runId ans]
    exact h.applied runId row hrow hs
  scheduled := scheduled_answers h.scheduled ha.schedules

theorem IntakeInv.aloneCommitted {request : IntakeRequest} {a : Option IntakeAnswer}
    {c v : IntakeDb} (h : IntakeInv P policy given ⟨c, c, false⟩)
    (ha : StatementAlone policy request c v a) :
    IntakeInv P policy (given ++ (a.map (request, ·)).toList) ⟨v, v, false⟩ where
  validCommitted := ha.aside.valid h.validCommitted
  validVisible := ha.aside.valid h.validVisible
  anchored _ runId row hrow _ := ⟨row, hrow, rfl⟩
  ahead runId row hrow _ := ⟨row, hrow, rfl⟩
  once runId := (begun_answers ha (h.once runId) (h.begun runId)).1
  begun runId := (begun_answers ha (h.once runId) (h.begun runId)).2
  fresh runId hall := by
    rw [filterMap_answers fun ans => ha.applies runId ans]
    refine h.fresh runId fun row hrow => ?_
    obtain ⟨row', hrow', -⟩ := ha.aside.present runId row hrow
    exact (ha.aside.carries (P := P) runId).awaiting row' hrow' (hall row' hrow') row hrow
  applied runId row hrow hs := by
    rw [filterMap_answers fun ans => ha.applies runId ans]
    obtain ⟨row', hrow', hs'⟩ := (ha.aside.carries (P := P) runId).applied row hrow hs
    obtain ⟨q, hq, hres⟩ := h.applied runId row' hrow' hs'
    exact ⟨q, hq, hres.aside ha.aside⟩
  scheduled := scheduled_answers h.scheduled ha.schedules

theorem IntakeInv.within {c v v' : IntakeDb} {f : Bool} (h : IntakeInv P policy given ⟨c, v, f⟩)
    (hi : v.Inside policy v') : IntakeInv P policy given ⟨c, v', f⟩ where
  validCommitted := h.validCommitted
  validVisible := hi.valid h.validVisible
  anchored hf runId row' hrow' hs := by
    cases hv : v.intakes.get runId with
    | none => exact absurd (hi.fresh runId row' hrow' hv) hs
    | some row =>
      obtain ⟨row'', hrow'', hd, -⟩ := hi.present runId row hv
      cases hrow'.symm.trans hrow''
      obtain ⟨r, hr, he⟩ := h.anchored hf runId row hv (hd ▸ hs)
      exact ⟨r, hr, he.trans hd.symm⟩
  ahead runId row hrow hs := by
    obtain ⟨row', hrow', hs'⟩ := h.ahead runId row hrow hs
    obtain ⟨row'', hrow'', -, hc⟩ := hi.present runId row' hrow'
    exact ⟨row'', hrow'', (hc (hs' ▸ hs)).trans hs'⟩
  once := h.once
  begun runId hpos := by
    obtain ⟨row, hrow, hs⟩ := h.begun runId hpos
    obtain ⟨row', hrow', hd, -⟩ := hi.present runId row hrow
    exact ⟨row', hrow', hd ▸ hs⟩
  fresh := h.fresh
  applied := h.applied
  scheduled := h.scheduled

theorem IntakeInv.commit {request : IntakeRequest} {a : Option IntakeAnswer} {c v : IntakeDb}
    {f : Bool} (h : IntakeInv P policy given ⟨c, v, f⟩)
    (hc : TransactionCommits P policy request c v a) :
    IntakeInv P policy (given ++ (a.map (request, ·)).toList) ⟨v, v, false⟩ where
  validCommitted := h.validVisible
  validVisible := h.validVisible
  anchored _ runId row hrow _ := ⟨row, hrow, rfl⟩
  ahead runId row hrow _ := ⟨row, hrow, rfl⟩
  once runId := by
    rw [countP_answers fun ans => hc.begins runId ans]
    exact h.once runId
  begun runId := by
    rw [countP_answers fun ans => hc.begins runId ans]
    exact h.begun runId
  fresh runId hall := by
    by_cases hnone : ∀ ans, a = some ans → appliedTo runId (request, ans) = none
    · rw [filterMap_answers hnone]
      have hcar := hc.carries runId hnone
      refine h.fresh runId fun row hrow => ?_
      cases hv : v.intakes.get runId with
      | none => cases (hcar.known hv).symm.trans hrow
      | some row' => exact hcar.awaiting row' hv (hall row' hv) row hrow
    · push Not at hnone
      obtain ⟨ans, hans, hne⟩ := hnone
      obtain ⟨q, hq⟩ := Option.ne_none_iff_exists'.mp hne
      obtain ⟨-, row', hrow', hs, -⟩ := hc.applies runId ans q hans hq
      exact absurd (hall row' hrow') hs
  applied runId row hrow hs := by
    by_cases hnone : ∀ ans, a = some ans → appliedTo runId (request, ans) = none
    · rw [filterMap_answers hnone]
      have hcar := hc.carries runId hnone
      obtain ⟨row', hrow', hs'⟩ := hcar.applied row hrow hs
      obtain ⟨q, hq, hres⟩ := h.applied runId row' hrow' hs'
      have hrun : q.runId = runId := by
        have hmem : q ∈ given.filterMap (appliedTo runId) := hq ▸ List.mem_singleton_self q
        obtain ⟨x, -, hx⟩ := List.mem_filterMap.mp hmem
        exact runId_of_appliedTo hx
      exact ⟨q, hq, hcar.result q hrun hres⟩
    · push Not at hnone
      obtain ⟨ans, rfl, hne⟩ := hnone
      obtain ⟨q, hq⟩ := Option.ne_none_iff_exists'.mp hne
      obtain ⟨⟨row₀, hrow₀, hs₀⟩, row', hrow', -, hres⟩ := hc.applies runId ans q rfl hq
      cases hrow.symm.trans hrow'
      refine ⟨q, ?_, hres hs⟩
      have hempty : given.filterMap (appliedTo runId) = [] := by
        refine h.fresh runId fun r hr => ?_
        cases hrow₀.symm.trans hr
        exact hs₀
      rw [List.filterMap_append, hempty]
      simp [hq]
  scheduled := scheduled_answers h.scheduled hc.schedules

theorem IntakeInv.rollback {c v : IntakeDb} (h : IntakeInv P policy given ⟨c, v, false⟩) :
    IntakeInv P policy given ⟨c, c, false⟩ where
  validCommitted := h.validCommitted
  validVisible := h.validCommitted
  anchored _ runId row hrow _ := ⟨row, hrow, rfl⟩
  ahead runId row hrow _ := ⟨row, hrow, rfl⟩
  once := h.once
  begun runId hpos := by
    obtain ⟨row, hrow, hs⟩ := h.begun runId hpos
    obtain ⟨row', hrow', hd⟩ := h.anchored rfl runId row hrow hs
    exact ⟨row', hrow', hd ▸ hs⟩
  fresh := h.fresh
  applied := h.applied
  scheduled := h.scheduled

theorem IntakeInv.step {s t : View IntakeDb} {x : Option (IntakeRequest × IntakeAnswer)}
    (h : IntakeInv P policy given s) (hm : Moves (intakePractice P policy) s t x) :
    IntakeInv P policy (given ++ x.toList) t := by
  cases hm with
  | quiet => simpa using h
  | alone ha hf => exact h.alone ha hf
  | aloneCommitted ha => exact h.aloneCommitted ha
  | within hi => simpa using h.within hi
  | commit hc => exact h.commit hc
  | rollback => simpa using h.rollback

end Step

/-! ## What is never left -/

/-- What a database has come to, a later one has too. -/
structure IntakeDb.Stays (P : Platform) (s t : View IntakeDb) : Prop where
  dispatch : ∀ runId row, s.visible.intakes.get runId = some row → row.dispatchState.Final →
    ∃ row', t.visible.intakes.get runId = some row' ∧ row'.dispatchState = row.dispatchState
  completion : ∀ runId row, s.committed.intakes.get runId = some row →
    row.completionState ≠ .awaiting →
    (∃ row', t.committed.intakes.get runId = some row' ∧
      row'.completionState = row.completionState) ∧
    ∃ row', t.visible.intakes.get runId = some row' ∧ row'.completionState = row.completionState
  result : ∀ q, s.committed.HasResult P q → t.committed.HasResult P q

section Stays

variable {given : List (IntakeRequest × IntakeAnswer)} {s t u : View IntakeDb}

theorem IntakeInv.stays_refl (h : IntakeInv P policy given s) : IntakeDb.Stays P s s where
  dispatch _ row hrow _ := ⟨row, hrow, rfl⟩
  completion runId row hrow hs := ⟨⟨row, hrow, rfl⟩, h.ahead runId row hrow hs⟩
  result _ hres := hres

theorem IntakeDb.Stays.trans (h : IntakeDb.Stays P s t) (h' : IntakeDb.Stays P t u) :
    IntakeDb.Stays P s u where
  dispatch runId row hrow hf := by
    obtain ⟨row', hrow', hd⟩ := h.dispatch runId row hrow hf
    obtain ⟨row'', hrow'', hd'⟩ := h'.dispatch runId row' hrow' (hd ▸ hf)
    exact ⟨row'', hrow'', hd'.trans hd⟩
  completion runId row hrow hs := by
    obtain ⟨⟨row', hrow', hc⟩, -⟩ := h.completion runId row hrow hs
    obtain ⟨⟨row₁, hrow₁, hc₁⟩, ⟨row₂, hrow₂, hc₂⟩⟩ := h'.completion runId row' hrow' (hc ▸ hs)
    exact ⟨⟨row₁, hrow₁, hc₁.trans hc⟩, ⟨row₂, hrow₂, hc₂.trans hc⟩⟩
  result q hres := h'.result q (h.result q hres)

theorem IntakeDb.Aside.final {v v' : IntakeDb} (ha : v.Aside v') {runId : String}
    {row : LocalRunIntakeRow} (hrow : v.intakes.get runId = some row)
    (hf : row.dispatchState.Final) :
    ∃ row', v'.intakes.get runId = some row' ∧ row'.dispatchState = row.dispatchState := by
  obtain ⟨row', hrow', hrel⟩ := ha.present runId row hrow
  exact ⟨row', hrow', hrel.final hf⟩

theorem LocalDispatchState.Final.ne_pending {d : LocalDispatchState} (h : d.Final) :
    d ≠ .pendingRunner := by
  rintro rfl
  rcases h with h | h <;> cases h

/-- One move leaves nothing that the database has come to. -/
theorem IntakeInv.stays {x : Option (IntakeRequest × IntakeAnswer)}
    (h : IntakeInv P policy given s) (hm : Moves (intakePractice P policy) s t x) :
    IntakeDb.Stays P s t := by
  have h' := h.step hm
  cases hm with
  | quiet => exact h.stays_refl
  | alone ha hf =>
    refine ⟨fun _ row hrow => ha.aside.final hrow, fun runId row hrow hs => ?_, fun _ => id⟩
    exact ⟨⟨row, hrow, rfl⟩, h'.ahead runId row hrow hs⟩
  | aloneCommitted ha =>
    refine ⟨fun _ row hrow => ha.aside.final hrow, fun runId row hrow hs => ?_,
      fun q hres => hres.aside ha.aside⟩
    obtain ⟨row', hrow', hrel⟩ := ha.aside.present runId row hrow
    have hstate : row'.completionState = row.completionState := by
      rcases hrel.state with he | ⟨he, -⟩
      · exact he
      · exact absurd he hs
    exact ⟨⟨row', hrow', hstate⟩, ⟨row', hrow', hstate⟩⟩
  | within hi =>
    refine ⟨fun runId row hrow _ => ?_, fun runId row hrow hs => ?_, fun _ => id⟩
    · obtain ⟨row', hrow', hd, -⟩ := hi.present runId row hrow
      exact ⟨row', hrow', hd⟩
    · exact ⟨⟨row, hrow, rfl⟩, h'.ahead runId row hrow hs⟩
  | @commit c v f request a hc =>
    refine ⟨fun runId row hrow _ => ⟨row, hrow, rfl⟩, fun runId row hrow hs => ?_, fun q hres => ?_⟩
    · have hv := h.ahead runId row hrow hs
      exact ⟨hv, hv⟩
    · by_cases hnone : ∀ ans, a = some ans → appliedTo q.runId (request, ans) = none
      · exact (hc.carries q.runId hnone).result q rfl hres
      · push Not at hnone
        obtain ⟨ans, hans, hne⟩ := hnone
        obtain ⟨q', hq'⟩ := Option.ne_none_iff_exists'.mp hne
        obtain ⟨⟨row, hrow, hs⟩, -⟩ := hc.applies q.runId ans q' hans hq'
        obtain ⟨row', hrow', hs', -⟩ := hres.intake
        cases hrow.symm.trans hrow'
        cases hs.symm.trans hs'
  | rollback c v =>
    refine ⟨fun runId row hrow hf => ?_, fun runId row hrow _ => ?_, fun _ => id⟩
    · exact h.anchored rfl runId row hrow hf.ne_pending
    · exact ⟨⟨row, hrow, rfl⟩, ⟨row, hrow, rfl⟩⟩

end Stays

/-! ## The laws -/

/-- The laws of the intake in one state: `given` are the answers that were given so far. -/
structure IntakeLaws (P : Platform) (policy : LocalCompletionRetryPolicy)
    (given : List (IntakeRequest × IntakeAnswer)) (s : View IntakeDb) : Prop where
  begunOnce : ∀ runId, given.countP (begins runId) ≤ 1
  retries : ∀ db, db = s.committed ∨ db = s.visible → ∀ runId row,
    db.intakes.get runId = some row → row.Retries policy
  scheduled : ∀ x ∈ given, ScheduledRight policy x
  applied : ∀ runId row, s.committed.intakes.get runId = some row →
    row.completionState = .applied →
    ∃ q, given.filterMap (appliedTo runId) = [q] ∧ s.committed.HasResult P q

theorem IntakeInv.laws {given : List (IntakeRequest × IntakeAnswer)} {s : View IntakeDb}
    (h : IntakeInv P policy given s) : IntakeLaws P policy given s where
  begunOnce := h.once
  retries := by
    rintro db (rfl | rfl)
    · exact h.validCommitted
    · exact h.validVisible
  scheduled := h.scheduled
  applied := h.applied

/-- The operations of the intake on a connection, and one event of them. -/
abbrev IntakeSession :=
  LedgerSession IntakeSql SqliteFault IntakeAnswer IntakeRequest IntakeDb

def intakeStep (P : Platform) (policy : LocalCompletionRetryPolicy) :
    IntakeSession → SessionEvent IntakeRequest SqliteFault → IntakeSession :=
  step intakeDatabase (IntakeRequest.operation P policy)

def intakeAfter (P : Platform) (policy : LocalCompletionRetryPolicy)
    (events : List (SessionEvent IntakeRequest SqliteFault)) : IntakeSession :=
  after intakeDatabase (IntakeRequest.operation P policy) .initial events

/-- The answers that the callers of the operations were given. -/
def intakeAnswers (P : Platform) (policy : LocalCompletionRetryPolicy)
    (events : List (SessionEvent IntakeRequest SqliteFault)) :
    List (IntakeRequest × IntakeAnswer) :=
  LedgerSession.answers intakeDatabase nestedTransaction (IntakeRequest.operation P policy)
    (.initial .initial) events

/-- In every history in which no rollback takes back what another operation wrote, the laws of the
intake hold, and what it has come to is never left. -/
theorem intake_lawful (hp : policy.Valid)
    (past later : List (SessionEvent IntakeRequest SqliteFault))
    (hm : Meets (intakeStep P policy) (LedgerSession.KeepsOthers IntakeStatement.isWrite)
      (.initial .initial) (past ++ later)) :
    IntakeLaws P policy (intakeAnswers P policy past)
        ((intakeAfter P policy past).view IntakeStatement.isWrite) ∧
      IntakeDb.Stays P ((intakeAfter P policy past).view IntakeStatement.isWrite)
        ((intakeAfter P policy (past ++ later)).view IntakeStatement.isWrite) := by
  obtain ⟨hpast, hlater⟩ := meets_append.mp hm
  have hstart : LedgerSession.Practised intakeDatabase (intakePractice P policy)
      (LedgerSession.initial IntakeDb.initial : IntakeSession) := LedgerSession.practised_initial _
  obtain ⟨hinv, hpr⟩ := hstart.run (fun op s h => intakeHandler_read op s h)
    (proper_operation hp) (fun _ _ _ _ h hm => IntakeInv.step h hm) intakeInv_initial hpast
  refine ⟨hinv.laws, ?_⟩
  -- The state after `past` stays behind the later ones: the induction is on what comes later.
  have hkeep : ∀ given (s t : View IntakeDb) x, IntakeInv P policy given s ∧
      IntakeDb.Stays P ((intakeAfter P policy past).view IntakeStatement.isWrite) s →
      Moves (intakePractice P policy) s t x → IntakeInv P policy (given ++ x.toList) t ∧
      IntakeDb.Stays P ((intakeAfter P policy past).view IntakeStatement.isWrite) t :=
    fun _ _ _ _ h hm => ⟨h.1.step hm, h.2.trans (h.1.stays hm)⟩
  have hrun := hpr.run (fun op s h => intakeHandler_read op s h) (proper_operation hp) hkeep
    ⟨hinv, hinv.stays_refl⟩ hlater
  have happend : intakeAfter P policy (past ++ later) =
      LedgerSession.run intakeDatabase nestedTransaction (IntakeRequest.operation P policy)
        (intakeAfter P policy past) later := List.foldl_append
  rw [happend]
  exact hrun.1.2

/-! ## A run that is completed, and an offer that is made twice -/

def sampleRetryPolicy : LocalCompletionRetryPolicy := ⟨1000, 60000, 5⟩

theorem sampleRetryPolicy_valid : sampleRetryPolicy.Valid :=
  ⟨⟨by decide, by decide⟩, ⟨by decide, by decide⟩, ⟨by decide, by decide⟩, by decide⟩

def intakeTime : Timestamp := "2026-01-01T00:00:00.000Z"

/-- A run is created, offered, found incomplete once, and completed. -/
def completedRun : List (SessionEvent IntakeRequest SqliteFault) :=
  [.spawn 0 (.create (sampleJob "job" "run") intakeTime), .advance 0 none, .advance 0 none,
    .advance 0 none, .advance 0 none, .spawn 1 (.beginOffer "run" 0 intakeTime), .advance 1 none,
    .spawn 2 (.markOffered "run" 0 intakeTime), .advance 2 none,
    .spawn 3 (.recordCompletionFailure "run" 0 "CompletionPending" intakeTime), .advance 3 none,
    .advance 3 none, .advance 3 none, .advance 3 none,
    .spawn 4 (.applyCompletion ⟨"run", 1, "job", "", ⟨"job", "run", .passed⟩, intakeTime⟩),
    .advance 4 none, .advance 4 none, .advance 4 none, .advance 4 none, .advance 4 none]

theorem meets_of_quiet {x : IntakeSession} {events : List (SessionEvent IntakeRequest SqliteFault)}
    (h : Meets (intakeStep P policy)
      (fun x _ => x.ledger.others.any IntakeStatement.isWrite = false) x events) :
    Meets (intakeStep P policy) (LedgerSession.KeepsOthers IntakeStatement.isWrite) x events := by
  refine Meets.imp (I := fun _ => True) (fun x e _ hx => ⟨fun _ => ?_, trivial⟩) trivial h
  rw [List.filter_eq_nil_iff]
  exact List.any_eq_false.mp hx

theorem completed_run_lawful :
    IntakeLaws samplePlatform sampleRetryPolicy
        (intakeAnswers samplePlatform sampleRetryPolicy completedRun)
        ((intakeAfter samplePlatform sampleRetryPolicy completedRun).view
          IntakeStatement.isWrite) ∧
      IntakeDb.Stays samplePlatform
        ((intakeAfter samplePlatform sampleRetryPolicy completedRun).view IntakeStatement.isWrite)
        ((intakeAfter samplePlatform sampleRetryPolicy (completedRun ++ completedRun)).view
          IntakeStatement.isWrite) :=
  intake_lawful sampleRetryPolicy_valid completedRun completedRun
    (meets_of_quiet (by decide))

example : (intakeAnswers samplePlatform sampleRetryPolicy completedRun).map (·.2) =
    [.created, .begun true, .finished true, .retry (.scheduled 1 "2026-01-01T00:00:01.000Z"),
      .apply .applied] := by decide

/-- A run is created again while its offer begins. The transaction of the second `create` is rolled
back with the offer in it, which then begins once more. -/
def offeredTwice : List (SessionEvent IntakeRequest SqliteFault) :=
  [.spawn 0 (.create (sampleJob "job" "run") intakeTime), .advance 0 none, .advance 0 none,
    .advance 0 none, .advance 0 none, .spawn 1 (.create (sampleJob "job" "run") intakeTime),
    .advance 1 none, .spawn 2 (.beginOffer "run" 0 intakeTime), .advance 2 none, .advance 1 none,
    .advance 1 none, .spawn 3 (.beginOffer "run" 0 intakeTime), .advance 3 none]

theorem offer_begins_twice : ¬ ∀ (events : List (SessionEvent IntakeRequest SqliteFault)) runId,
    (intakeAnswers samplePlatform sampleRetryPolicy events).countP (begins runId) ≤ 1 := by
  intro h
  have htwice := h offeredTwice "run"
  revert htwice
  decide

end Qualigence.Sqlite
