import Qualigence.Core.Isolation

/-! # What an upload adds and acknowledges

An upload moves the trace store on: stored events stay, new ones come from the batch and
are put at the cursor of their run, and cursors do not go back. The number that an upload
of events of one run acknowledges is at most the cursor of that run, so everything below
it is stored. No other call of the application touches the trace store.
-/

namespace Qualigence.Core

open Foundation Protocol Trace SqliteTraceStore

/-! ## The trace store moves on -/

/-- The store moved on by events of a list. -/
structure Advanced (events : List TraceEvent) (db db' : TraceDb) : Prop where
  grows : db.Grows db'
  contiguous : db.Contiguous → db'.Contiguous
  cursor_le : ∀ runId, cursor runId db ≤ cursor runId db'
  added : ∀ k e, db'.events.get k = some e → db.events.get k = some e ∨ e ∈ events

section Store

variable {events : List TraceEvent} {db db' db'' : TraceDb}

theorem Advanced.refl (events : List TraceEvent) (db : TraceDb) : Advanced events db db :=
  ⟨.refl db, id, fun _ => le_rfl, fun _ _ h => .inl h⟩

theorem Advanced.trans (h : Advanced events db db') (h' : Advanced events db' db'') :
    Advanced events db db'' := by
  refine ⟨h.grows.trans h'.grows, h'.contiguous ∘ h.contiguous,
    fun runId => (h.cursor_le runId).trans (h'.cursor_le runId), fun k e hk => ?_⟩
  rcases h'.added k e hk with hk | he
  · exact h.added k e hk
  · exact .inr he

theorem advanced_appendTraceEvent {event : TraceEvent} (he : event ∈ events) :
    Advanced events db (appendTraceEvent event db).2 := by
  by_cases hs : Storable event db
  · obtain ⟨db', hr, hp⟩ := appendTraceEvent_of_storable hs
    rw [hr]
    refine ⟨hp.grows, fun hc => hc.pushed hs hp, fun runId => ?_, fun k e hk => ?_⟩
    · rw [hp.cursor hs.run]
      split <;> omega
    · rw [hp.get] at hk
      split at hk
      · cases hk
        exact .inr he
      · exact .inl hk
  · rw [(appendTraceEvent_of_not_storable hs).1]
    exact .refl events db

/-- Only the findings differ. -/
theorem advanced_of_findings (hg : db.Grows db') (he : db'.events = db.events)
    (hr : db'.runs = db.runs) : Advanced events db db' := by
  have hcur : ∀ runId, cursor runId db' = cursor runId db := by
    intro runId
    unfold cursor
    rw [hr]
  refine ⟨hg, fun hc => ⟨fun runId => ?_, fun runId n => ?_⟩, fun runId => (hcur runId).ge,
    fun k e hk => ?_⟩
  · rw [hcur]
    exact hc.positive runId
  · rw [hcur, he]
    exact hc.stored runId n
  · rw [he] at hk
    exact .inl hk

/-- The number that an answer carries. -/
def nextOf : TraceAppendResult → Option ℕ
  | .accepted n | .duplicate n | .sequenceGap n => some n
  | .hashMismatch _ _ | .integrityViolation _ | .artifactUnacknowledged _ => none

/-- An append answers with at most the cursor that it leaves. -/
theorem next_le_cursor {event : TraceEvent} {result : TraceAppendResult}
    (h : (appendTraceEvent event db).1 = .ok result) {n : ℕ} (hn : nextOf result = some n) :
    n ≤ cursor event.runId (appendTraceEvent event db).2 := by
  by_cases hs : Storable event db
  · obtain ⟨db', hr, hp⟩ := appendTraceEvent_of_storable hs
    rw [hr] at h ⊢
    cases h
    cases hn
    rw [hp.cursor hs.run, if_pos rfl]
  · obtain ⟨hdb, hacc⟩ := appendTraceEvent_of_not_storable hs
    rw [hdb]
    -- it was not accepted, and the other answers carry the cursor or nothing
    have hcases : nextOf result = none ∨ nextOf result = some (cursor event.runId db) := by
      cases result with
      | accepted next => exact absurd h (hacc next)
      | _ =>
        unfold appendTraceEvent insertEvent at h
        dsimp only at h
        repeat' split at h
        all_goals cases h
        all_goals simp [nextOf]
    rcases hcases with hc | hc
    · rw [hc] at hn
      cases hn
    · rw [hc] at hn
      cases hn
      exact le_rfl

end Store

/-! ## One upload -/

section Upload

variable {τ : Type} [DecidableEq τ] {P : Platform} {O : Oracle} {scope : τ} {w : World τ}
  {batch : ExecutionEventBatch}

theorem advanced_handler {op : CoreOp} (hop : FromBatch batch op) :
    Advanced batch.events w.trace (handler P O scope op w).2.trace := by
  cases op with
  | appendTraceEvent event =>
    rw [show (handler P O scope (.appendTraceEvent event) w).2.trace = _ from onTrace_trace _]
    split
    · exact .refl _ _
    · exact advanced_appendTraceEvent hop
  | appendFinding finding payloadHash =>
    rw [show (handler P O scope (.appendFinding finding payloadHash) w).2.trace = _ from
      onTrace_trace _]
    split
    · exact .refl _ _
    · exact advanced_of_findings (grows_appendFinding P finding payloadHash _ w.trace)
        (events_appendFinding _ _) (runs_appendFinding _ _)
  | _ =>
    rw [trace_handler (by rintro ⟨⟩)]
    exact .refl _ _

/-- A program whose operations come from a batch moves the store on by its events. -/
theorem advanced_run {α : Type} {p : Service α} (hp : p.Uses (FromBatch batch)) :
    Advanced batch.events w.trace (p.run (handler P O scope) w).2.trace :=
  Program.run_of_uses (R := fun s t : World τ => Advanced batch.events s.trace t.trace)
    (fun _ => .refl _ _) (fun _ _ _ h h' => h.trans h') (fun _ _ hop => advanced_handler hop) hp w

/-- The answer to one event carries at most the cursor of its run. -/
def Answered {τ : Type} (event : TraceEvent) (r : Except CoreError TraceAppendResult)
    (t : World τ) : Prop :=
  ∀ result, r = .ok result → ∀ n, nextOf result = some n → n ≤ cursor event.runId t.trace

theorem answered_appendTraceEvent (event : TraceEvent) :
    (Store.appendTraceEvent event).Ends (handler P O scope) (Answered event) w := by
  refine ends_perform (.appendTraceEvent event) fun result hr n hn => ?_
  change (w.onTrace O (SqliteTraceStore.appendTraceEvent event)).1 = _ at hr
  change n ≤ cursor event.runId (w.onTrace O (SqliteTraceStore.appendTraceEvent event)).2.trace
  unfold World.onTrace at hr ⊢
  cases hf : O.fault w.draws with
  | none =>
    simp only [hf] at hr ⊢
    cases he : (SqliteTraceStore.appendTraceEvent event w.trace).1 with
    | error e =>
      rw [he] at hr
      cases hr
    | ok result' =>
      rw [he] at hr
      cases hr
      exact next_le_cursor he hn
  | before =>
    simp only [hf] at hr
    cases hr
  | after =>
    simp only [hf] at hr
    cases hr

theorem answered_ingest (event : TraceEvent) :
    (TraceIngestor.ingest P event).Ends (handler P O scope) (Answered event) w := by
  unfold TraceIngestor.ingest
  dsimp only
  split
  · rintro _ ⟨⟩ _ ⟨⟩
  split
  · rintro _ ⟨⟩
  · exact answered_appendTraceEvent event
  · refine Program.ends_bind (fun _ _ => True)
      (ends_perform (.acknowledgedArtifactIds _ _) trivial) fun ids t _ => ?_
    split
    · rintro _ ⟨⟩ _ ⟨⟩
    · exact answered_appendTraceEvent event

/-- The acknowledgement answers the batch, and its number is at most the cursor of the run. -/
def Acknowledged {τ : Type} (batch : ExecutionEventBatch) (r : Except CoreError ExecutionEventAck)
    (t : World τ) : Prop :=
  ∀ ack, r = .ok ack → ack.batchId = batch.batchId ∧ ack.runId = batch.runId ∧
    ack.nextExpectedSequenceNumber ≤ cursor batch.runId t.trace

variable (o : CoreOptions)

theorem acknowledged_ingestEvents {events : List TraceEvent} (hb : events ⊆ batch.events)
    (hrun : ∀ e ∈ events, e.runId = batch.runId) {next : ℕ}
    (hn : events = [] → next ≤ cursor batch.runId w.trace) :
    (RunnerSessionService.ingestEvents o batch events next).Ends (handler o.platform O scope)
      (Acknowledged batch) w := by
  induction events generalizing next w with
  | nil =>
    rintro _ ⟨⟩
    exact ⟨rfl, rfl, hn rfl⟩
  | cons event events ih =>
    have hmem : event ∈ batch.events := hb List.mem_cons_self
    have he : event.runId = batch.runId := hrun event List.mem_cons_self
    have hbs : events ⊆ batch.events := fun x hx => hb (List.mem_cons_of_mem _ hx)
    have hes : ∀ e ∈ events, e.runId = batch.runId :=
      fun e h => hrun e (List.mem_cons_of_mem _ h)
    unfold RunnerSessionService.ingestEvents
    refine Program.ends_bind (fun result t => Answered event (.ok result) t)
      ((answered_ingest event).mono ?_) fun result t ha => ?_
    · rintro (e | result) t ha
      · rintro _ ⟨⟩
      · exact ha
    have hle : ∀ n, nextOf result = some n → n ≤ cursor batch.runId t.trace :=
      he ▸ ha result rfl
    cases result with
    | accepted n =>
      dsimp only
      split
      · -- storing the finding does not move a cursor back
        refine Program.ends_bind (fun _ u => n ≤ cursor batch.runId u.trace)
          (ends_perform (.appendFinding _ _) ?_) fun _ u hu => ih hbs hes fun _ => hu
        have hadv : Advanced batch.events t.trace (handler o.platform O scope (.appendFinding
            event.payload (canonicalPayloadHash o.platform event.payload)) t).2.trace :=
          advanced_handler ⟨event, hmem, ‹_›, rfl⟩
        split
        · exact (hle n rfl).trans (hadv.cursor_le _)
        · rintro _ ⟨⟩
      · exact ih hbs hes fun _ => hle n rfl
    | duplicate n => exact ih hbs hes fun _ => hle n rfl
    | sequenceGap n =>
      rintro _ ⟨⟩
      exact ⟨rfl, rfl, hle n rfl⟩
    | _ => rintro _ ⟨⟩

/-- An upload of events of one run acknowledges at most the cursor of that run. -/
theorem acknowledged_ingest (scope : τ) (hne : batch.events ≠ [])
    (hrun : ∀ e ∈ batch.events, e.runId = batch.runId) (sessionId : String) :
    (RunnerSessionService.ingest o sessionId batch).Ends (handler o.platform O scope)
      (Acknowledged batch) w := by
  refine Program.ends_bind (fun _ _ => True) (ends_perform (.session sessionId) trivial) ?_
  rintro (_ | session) t -
  · rintro _ ⟨⟩
  refine Program.ends_bind (fun _ _ => True) ?_ fun _ u _ =>
    acknowledged_ingestEvents o (List.Subset.refl _) hrun fun h => absurd h hne
  unfold Program.Ends
  dsimp only
  split
  · trivial
  · rintro _ ⟨⟩

end Upload

/-! ## The other events -/

section Others

variable {τ : Type} [DecidableEq τ] {O : Oracle} {scope : τ} {o : CoreOptions}

/-- Only uploads touch the trace store. -/
theorem trace_call {call : AppCall} (h : ∀ sessionId batch, call ≠ .ingest sessionId batch)
    (w : World τ) : ((call.body o).run (handler o.platform O scope) w).2.trace = w.trace := by
  cases call with
  | openSession hello identity =>
    exact ends_trace (show opening .trace = false from rfl) (Program.uses_bind
      (RunnerSessionService.uses_register o hello identity) fun _ => trivial)
  | createOffer sessionId job requirements =>
    exact ends_trace (show offering .trace = false from rfl) (Program.uses_bind
      (CoreRunnerProtocolApplication.uses_createOffer o _ _ _) fun _ => trivial)
  | accept sessionId offerId =>
    exact ends_trace (show offering .trace = false from rfl) (Program.uses_bind
      (CoreRunnerProtocolApplication.uses_accept o _ _) fun _ => trivial)
  | renew sessionId lease =>
    exact ends_trace (show leasing .trace = false from rfl) (Program.uses_bind
      (CoreRunnerProtocolApplication.uses_renew o _ _) fun _ => trivial)
  | ingest sessionId batch => exact absurd rfl (h sessionId batch)
  | complete sessionId lease completion =>
    exact ends_trace (show settling .trace = false from rfl) (Program.uses_bind
      (CoreRunnerProtocolApplication.uses_complete o _ _ _) fun _ => trivial)
  | closeSession sessionId =>
    exact ends_trace (show opening .trace = false from rfl) (Program.uses_bind
      (RunnerSessionService.uses_closeSession sessionId) fun _ => trivial)

omit [DecidableEq τ] in
/-- A new run starts at the cursor that a run without a row has. -/
theorem advanced_createRun (w : World τ) (runId : String) :
    Advanced [] w.trace (w.createRun runId).trace := by
  unfold World.createRun
  split
  · next runs hins =>
    have hcur : ∀ run, cursor run { w.trace with runs } = cursor run w.trace := by
      intro run
      unfold cursor
      dsimp only
      rw [Table.get_of_insert hins]
      split
      · next he =>
        have hnone : w.trace.runs.get run = none := he ▸ Table.get_eq_none_of_insert hins
        rw [hnone]
        rfl
      · rfl
    refine ⟨⟨fun _ _ h => h, fun _ _ h => h⟩, fun hc => ⟨fun run => ?_, fun run n => ?_⟩,
      fun run => (hcur run).ge, fun _ _ h => .inl h⟩
    · rw [hcur]
      exact hc.positive run
    · rw [hcur]
      exact hc.stored run n
  · exact .refl _ _

end Others

end Qualigence.Core
