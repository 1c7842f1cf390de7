import Qualigence.Dispatch.World
import Qualigence.Mission.ExactlyOnce

/-! # How dispatches move

A row of the outbox stays as it is, or it is pending and is marked accepted or blocked.
The services and the starts of missions only add pending rows.
-/

namespace Qualigence.Dispatch

open Foundation Protocol Mission

/-- A later row of the same dispatch. -/
inductive RowMoves (r : OutboxRow) : OutboxRow → Prop
  | same : RowMoves r r
  | accepted (receipt : MissionDispatchAcceptanceReceipt) (hp : r.status = .pending)
      (hj : r.runnerJobId = receipt.jobId) (hr : r.runId = receipt.runId) :
      RowMoves r (acceptRow receipt r.version r)
  | blocked (hp : r.status = .pending) : RowMoves r (blockRow r.version r)

namespace RowMoves

variable {r r' r'' : OutboxRow}

theorem attemptId (h : RowMoves r r') : r'.attemptId = r.attemptId := by
  cases h <;> rfl

theorem dispatch (h : RowMoves r r') : r'.dispatch = r.dispatch := by
  cases h <;> rfl

/-- A row that is not pending does not move. -/
theorem eq_of_ne_pending (h : RowMoves r r') (hr : r.status ≠ .pending) : r' = r := by
  cases h with
  | same => rfl
  | accepted receipt hp hj hr' => exact absurd hp hr
  | blocked hp => exact absurd hp hr

theorem trans (h : RowMoves r r') (h' : RowMoves r' r'') : RowMoves r r'' := by
  cases h with
  | same => exact h'
  | accepted receipt hp hj hr =>
    rw [h'.eq_of_ne_pending (by simp [acceptRow])]
    exact .accepted receipt hp hj hr
  | blocked hp =>
    rw [h'.eq_of_ne_pending (by simp [blockRow])]
    exact .blocked hp

end RowMoves

/-- Every row moves, and the rows that are added are pending. -/
structure OutboxMoves (db db' : MissionDb) : Prop where
  kept : ∀ r ∈ db.outbox.rows, ∃ r' ∈ db'.outbox.rows, RowMoves r r'
  origin : ∀ r' ∈ db'.outbox.rows, (∃ r ∈ db.outbox.rows, RowMoves r r') ∨ r'.status = .pending

/-- The dispatches of one database are those of the other, or pending ones are added. -/
def OutboxGrows (db db' : MissionDb) : Prop :=
  ∃ added : List OutboxRow, db'.outbox.rows = db.outbox.rows ++ added ∧
    ∀ r ∈ added, r.status = .pending

section Missions

variable {P : PlanningPlatform} {db db' : MissionDb}

theorem OutboxGrows.of_eq (h : db'.outbox = db.outbox) : OutboxGrows db db' :=
  ⟨[], by rw [h, List.append_nil], by simp⟩

theorem OutboxGrows.moves (h : OutboxGrows db db') : OutboxMoves db db' := by
  obtain ⟨added, hrows, hadded⟩ := h
  constructor
  · intro r hr
    rw [hrows]
    exact ⟨r, List.mem_append_left _ hr, .same⟩
  · intro r' hr'
    rw [hrows] at hr'
    rcases List.mem_append.mp hr' with hr' | hr'
    · exact .inl ⟨r', hr', .same⟩
    · exact .inr (hadded r' hr')

/-- A mark moves the row of its attempt and no other row. -/
theorem moves_of_marks {attemptId : String} {version : ℕ} {rewrite : OutboxRow → OutboxRow}
    {hrewrite : ∀ r, (rewrite r).attemptId = r.attemptId} {status : AttemptStatus}
    {row : OutboxRow} (hm : Marks attemptId version rewrite hrewrite status db db')
    (hrow : db.outbox.get attemptId = some row) (hmove : RowMoves row (rewrite row)) :
    OutboxMoves db db' ∧ ∀ r' ∈ db'.outbox.rows, r' ∈ db.outbox.rows ∨ r' = rewrite row := by
  have hrows : db'.outbox.rows = db.outbox.rows.map fun r =>
      if isPendingAt attemptId version r then rewrite r else r := by
    rw [hm.outbox]
    rfl
  have hone : ∀ r ∈ db.outbox.rows, isPendingAt attemptId version r → r = row := by
    intro r hr hsel
    obtain ⟨hid, _⟩ := of_decide_eq_true hsel
    exact Option.some.inj ((Table.get_eq_some_iff.mpr ⟨hr, hid⟩).symm.trans hrow)
  have hmoves : ∀ r ∈ db.outbox.rows,
      RowMoves r (if isPendingAt attemptId version r then rewrite r else r) := by
    intro r hr
    split
    · next hsel =>
      rw [hone r hr hsel]
      exact hmove
    · exact .same
  refine ⟨⟨fun r hr => ?_, fun r' hr' => ?_⟩, fun r' hr' => ?_⟩
  · rw [hrows]
    exact ⟨_, List.mem_map_of_mem hr, hmoves r hr⟩
  · rw [hrows] at hr'
    obtain ⟨r, hr, rfl⟩ := List.mem_map.mp hr'
    exact .inl ⟨r, hr, hmoves r hr⟩
  · rw [hrows] at hr'
    obtain ⟨r, hr, rfl⟩ := List.mem_map.mp hr'
    by_cases hsel : isPendingAt attemptId version r
    · rw [if_pos hsel, hone r hr hsel]
      exact .inr rfl
    · rw [if_neg hsel]
      exact .inl hr

theorem moves_of_markAccepted {Q : Platform} {attemptId : String}
    {receipt : MissionDispatchAcceptanceReceipt} {version : ℕ} {d : MissionDispatch}
    (h : markDispatchAccepted Q attemptId receipt version db = .ok (d, db')) :
    OutboxMoves db db' ∧ ∀ r' ∈ db'.outbox.rows,
      r' ∈ db.outbox.rows ∨ (r'.runnerJobId = receipt.jobId ∧ r'.runId = receipt.runId) := by
  rcases markDispatchAccepted_cases h with ⟨_, _, _, rfl⟩ | ⟨row, hrow, hp, rfl, hj, hr, hm⟩
  · exact ⟨(OutboxGrows.of_eq rfl).moves, fun r' hr' => .inl hr'⟩
  obtain ⟨hmoves, hrows⟩ := moves_of_marks hm hrow (.accepted receipt hp hj hr)
  refine ⟨hmoves, fun r' hr' => ?_⟩
  rcases hrows r' hr' with hmem | rfl
  · exact .inl hmem
  · exact .inr ⟨hj, hr⟩

theorem moves_of_markBlocked {Q : Platform} {attemptId : String} {version : ℕ}
    {d : MissionDispatch} (h : markDispatchBlocked Q attemptId version db = .ok (d, db')) :
    OutboxMoves db db' ∧ ∀ r' ∈ db'.outbox.rows,
      r' ∈ db.outbox.rows ∨ r'.status = .blocked := by
  rcases markDispatchBlocked_cases h with ⟨_, _, _, rfl⟩ | ⟨row, hrow, hp, rfl, hm⟩
  · exact ⟨(OutboxGrows.of_eq rfl).moves, fun r' hr' => .inl hr'⟩
  obtain ⟨hmoves, hrows⟩ := moves_of_marks hm hrow (.blocked hp)
  refine ⟨hmoves, fun r' hr' => ?_⟩
  rcases hrows r' hr' with hmem | rfl
  · exact .inl hmem
  · exact .inr rfl

/-! ## The services and the starts -/

theorem outbox_of_service (e : MissionEvent) (he : isMark (.service e) = false) :
    (MissionWorld.step P ⟨db, fun _ => none⟩ e).db.outbox = db.outbox := by
  have hkeeps : ∀ {ε α : Type} {body : MissionDb → Except ε (α × MissionDb)},
      (∀ a db', body db = .ok (a, db') → db'.outbox = db.outbox) →
      (transact body db).2.outbox = db.outbox := by
    intro ε α body hbody
    exact transact_keeps (I := fun t => t.outbox = db.outbox) hbody rfl
  cases e with
  | savePrdDocument document => rfl
  | createPlan command => exact hkeeps fun _ _ h => (untouched_of_createPlan h).outbox
  | approvePlan command now => exact hkeeps fun _ _ h => (untouched_of_approvePlan h).outbox
  | createTarget input key => exact hkeeps fun _ _ h => (untouched_of_createTarget h).outbox
  | createMission now command =>
    refine hkeeps fun _ _ h => ?_
    rcases createMission_cases h with rfl | ⟨_, _, _, _, _, _, rfl⟩
    · rfl
    · rfl
  | replay request command =>
    change (MissionWorld.replay P request command ⟨db, fun _ => none⟩).2.db.outbox = _
    unfold MissionWorld.replay
    split <;> rfl
  | load request => rfl
  | schedule request scheduledAt ids => rfl
  | markAccepted attemptId receipt version => cases he
  | markBlocked attemptId version => cases he
  | setMissionStatus missionId revision status => rfl
  | restart => rfl

/-- A turn of the services or of a start leaves the dispatches or adds pending ones. -/
theorem grows_of_turn {w : StartWorld} (hw : w.Exact P) (turn : MissionTurn) :
    OutboxGrows w.db (w.step P turn.val).db := by
  obtain ⟨e, he⟩ := turn
  cases e with
  | service e =>
    change OutboxGrows w.db (StartWorld.service P e w).db
    unfold StartWorld.service
    split
    · exact .of_eq rfl
    · exact .of_eq (outbox_of_service e he)
  | replay request command =>
    change OutboxGrows w.db (StartWorld.replay P request command w).2.db
    unfold StartWorld.replay
    split <;> exact .of_eq rfl
  | load request =>
    change OutboxGrows w.db (StartWorld.load request w).2.db
    unfold StartWorld.load
    split
    · split
      · exact .of_eq rfl
      · exact .of_eq rfl
      · split <;> exact .of_eq rfl
    · exact .of_eq rfl
  | begin request scheduledAt ids =>
    change OutboxGrows w.db (StartWorld.begin P request scheduledAt ids w).2.db
    unfold StartWorld.begin
    split
    · dsimp only
      split
      · exact .of_eq rfl
      · split <;> exact .of_eq rfl
    · exact .of_eq rfl
  | write =>
    change OutboxGrows w.db (StartWorld.write w).2.db
    unfold StartWorld.write
    split
    · exact .of_eq rfl
    next o ho =>
    split
    · next hrest =>
      obtain ⟨command, mission, binding, scheduledAt, ids, _, hs⟩ :=
        StartWorld.starts_of_commit hw ho hrest
      refine ⟨_, hs.outbox, fun r hr => ?_⟩
      obtain ⟨s, _, rfl⟩ := List.mem_map.mp hr
      rfl
    · split <;> exact .of_eq rfl
  | fail error =>
    change OutboxGrows w.db (w.respond P (.fail error)).2.db
    unfold StartWorld.respond
    dsimp only
    split <;> exact .of_eq rfl
  | restart => exact .of_eq rfl

end Missions

end Qualigence.Dispatch
