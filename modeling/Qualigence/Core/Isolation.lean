import Qualigence.Core.Offers
import Qualigence.Trace.Steps

/-! # Isolation of trace uploads

A Runner may upload a trace for the runs that are leased to it. The check looks at the run
that the batch names; the events and the finding payloads of the batch name runs of their
own. An upload is isolated exactly when every event and every finding that the stores take
from it names a run of the Runner.
-/

namespace Qualigence.Core

open Foundation Protocol Lease Trace

section Isolation

variable {τ : Type} [DecidableEq τ]

/-- The run is leased to the Runner. -/
def LeasedTo (scope : τ) (runnerId runId : String) (w : World τ) : Prop :=
  ∃ row, w.db.leases.get (scope, runId) = some row ∧ row.runnerId = runnerId

/-- Between two worlds, everything that was added to the trace stores belongs to runs of the
Runner, and what is stored for other runs is the same. -/
structure Isolated (scope : τ) (runnerId : String) (w t : World τ) : Prop where
  events_added : ∀ k e, t.trace.events.get k = some e → w.trace.events.get k = none →
    LeasedTo scope runnerId e.runId w
  findings_added : ∀ id row, t.trace.findings.get id = some row →
    w.trace.findings.get id = none → LeasedTo scope runnerId row.runId w
  events_kept : ∀ runId n, ¬ LeasedTo scope runnerId runId w →
    t.trace.events.get (runId, n) = w.trace.events.get (runId, n)
  findings_kept : ∀ id row, ¬ LeasedTo scope runnerId row.runId w →
    (t.trace.findings.get id = some row ↔ w.trace.findings.get id = some row)

/-- An event or a finding that the store takes in this step belongs to a run of the Runner:
for the event the run it names itself, for the finding the one its payload names. -/
def OwnStep (P : Platform) (O : Oracle) (scope : τ) (runnerId : String) (w : World τ) :
    CoreOp → Prop
  | .appendTraceEvent event => O.fault w.draws ≠ .before → Storable event w.trace →
    LeasedTo scope runnerId event.runId w
  | .appendFinding finding _ => O.fault w.draws ≠ .before → ∀ findingId runId,
    StorableFinding P finding findingId runId w.trace → LeasedTo scope runnerId runId w
  | _ => True

variable {P : Platform} {O : Oracle} {scope : τ} {runnerId : String} {w t u : World τ}

/-! ## One step -/

omit [DecidableEq τ] in
theorem onTrace_trace {α : Type} (f : TraceDb → TraceResult α) :
    (w.onTrace O f).2.trace = if O.fault w.draws = .before then w.trace else (f w.trace).2 := by
  unfold World.onTrace
  cases O.fault w.draws <;> rfl

omit [DecidableEq τ] in
theorem onDb_trace {α : Type} (f : RunnerControlDb τ → StoreResult τ α) :
    (w.onDb O f).2.trace = w.trace := by
  unfold World.onDb
  cases O.fault w.draws <;> rfl

theorem trace_handler {op : CoreOp} (h : op.writes ≠ .trace) :
    (handler P O scope op w).2.trace = w.trace := by
  cases op with
  | appendTraceEvent event => exact absurd rfl h
  | appendFinding finding payloadHash => exact absurd rfl h
  | grantLease input => exact onDb_trace _
  | renewLease input => exact onDb_trace _
  | completeLease input => exact onDb_trace _
  | markLeaseLost runId lostAt => exact onDb_trace _
  | lease runId => exact onDb_trace _
  | completion runId => exact onDb_trace _
  | saveSession record => exact onDb_trace _
  | closeSession sessionId closedAt => exact onDb_trace _
  | issueResumeToken tokenHash binding expiresAt => exact onDb_trace _
  | rotateResumeToken input => exact onDb_trace _
  | _ => rfl

/-- A service whose footprint has no trace leaves it as it is. -/
theorem ends_trace {α : Type} {parts : Part → Bool} (hc : parts .trace = false)
    {p : Service α} (hp : p.Uses (Writes parts)) :
    p.Ends (handler P O scope) (fun _ t => t.trace = w.trace) w := by
  refine Program.run_of_uses (R := fun s t : World τ => t.trace = s.trace) (fun _ => rfl)
    (fun _ _ _ h h' => h'.trans h) (fun op s hop => trace_handler fun he => ?_) hp w
  unfold Writes at hop
  rw [he, hc] at hop
  cases hop

theorem grows_handler (op : CoreOp) : w.trace.Grows (handler P O scope op w).2.trace := by
  cases op with
  | appendTraceEvent event =>
    rw [show (handler P O scope (.appendTraceEvent event) w).2.trace = _ from onTrace_trace _]
    split
    · exact .refl _
    · exact grows_appendTraceEvent event w.trace
  | appendFinding finding payloadHash =>
    rw [show (handler P O scope (.appendFinding finding payloadHash) w).2.trace = _ from
      onTrace_trace _]
    split
    · exact .refl _
    · exact grows_appendFinding P finding payloadHash _ w.trace
  | _ =>
    rw [trace_handler (by rintro ⟨⟩)]
    exact .refl _

/-- Operations of an upload do not touch leases. -/
theorem leasedTo_handler {op : CoreOp} (h : Writes ingesting op) (runId : String) :
    LeasedTo scope runnerId runId (handler P O scope op w).2 ↔
      LeasedTo scope runnerId runId w := by
  have hc : op.leaseCall = none := by
    cases op <;> first | rfl | cases h
  have hr : (handler P O scope op w).2.db.leases.get (scope, runId) =
      w.db.leases.get (scope, runId) :=
    congrArg RunView.lease (run_handler (k := (scope, runId)) hc)
  unfold LeasedTo
  rw [hr]

/-- Since nothing stored changes, it is enough to look at what is added. -/
theorem isolated_iff (hg : w.trace.Grows t.trace) : Isolated scope runnerId w t ↔
    (∀ k e, t.trace.events.get k = some e → w.trace.events.get k = none →
      LeasedTo scope runnerId e.runId w) ∧
    ∀ id row, t.trace.findings.get id = some row → w.trace.findings.get id = none →
      LeasedTo scope runnerId row.runId w := by
  constructor
  · intro h
    exact ⟨h.events_added, h.findings_added⟩
  · rintro ⟨he, hf⟩
    refine ⟨he, hf, fun runId n hn => ?_, fun id row hn => ⟨fun hrow => ?_, hg.findings id row⟩⟩
    · cases hw : w.trace.events.get (runId, n) with
      | some e => exact hg.events _ e hw
      | none =>
        cases ht : t.trace.events.get (runId, n) with
        | none => rfl
        | some e =>
          have hk : eventKey e = (runId, n) := Table.key_of_get ht
          have hrun : e.runId = runId := congrArg Prod.fst hk
          exact absurd (hrun ▸ he _ e ht hw) hn
    · cases hw : w.trace.findings.get id with
      | none => exact absurd (hf id row hrow hw) hn
      | some row' =>
        rw [hg.findings id row' hw] at hrow
        exact hrow

theorem isolated_of_trace_eq (h : t.trace = w.trace) : Isolated scope runnerId w t := by
  refine ⟨fun k e ht hw => ?_, fun id row ht hw => ?_, fun runId n _ => ?_, fun id row _ => ?_⟩
  · rw [h, hw] at ht
    cases ht
  · rw [h, hw] at ht
    cases ht
  · rw [h]
  · rw [h]

theorem isolated_appendTraceEvent (event : TraceEvent) :
    Isolated scope runnerId w (handler P O scope (.appendTraceEvent event) w).2 ↔
      OwnStep P O scope runnerId w (.appendTraceEvent event) := by
  have ht : (handler P O scope (.appendTraceEvent event) w).2.trace =
      if O.fault w.draws = .before then w.trace
      else (SqliteTraceStore.appendTraceEvent event w.trace).2 := onTrace_trace _
  by_cases hf : O.fault w.draws = .before
  · rw [if_pos hf] at ht
    exact ⟨fun _ hn => absurd hf hn, fun _ => isolated_of_trace_eq ht⟩
  rw [if_neg hf] at ht
  by_cases hs : Storable event w.trace
  · obtain ⟨db', he, hp⟩ := appendTraceEvent_of_storable hs
    rw [he] at ht
    rw [isolated_iff (grows_handler _), ht]
    constructor
    · rintro ⟨hadd, -⟩ - -
      refine hadd (eventKey event) event ?_ hs.fresh
      rw [hp.get, if_pos rfl]
    · intro hown
      refine ⟨fun k e hk hw => ?_, fun id row hid hw => ?_⟩
      · rw [hp.get] at hk
        split at hk
        · cases hk
          exact hown hf hs
        · rw [hw] at hk
          cases hk
      · rw [hp.findings, hw] at hid
        cases hid
  · rw [(appendTraceEvent_of_not_storable hs).1] at ht
    exact ⟨fun _ _ h => absurd h hs, fun _ => isolated_of_trace_eq ht⟩

theorem isolated_appendFinding (finding : JsValue) (payloadHash : Option String) :
    Isolated scope runnerId w (handler P O scope (.appendFinding finding payloadHash) w).2 ↔
      OwnStep P O scope runnerId w (.appendFinding finding payloadHash) := by
  have ht : (handler P O scope (.appendFinding finding payloadHash) w).2.trace =
      if O.fault w.draws = .before then w.trace
      else (SqliteTraceStore.appendFinding P finding payloadHash (toISOString (O.now w.draws))
        w.trace).2 := onTrace_trace _
  by_cases hf : O.fault w.draws = .before
  · rw [if_pos hf] at ht
    exact ⟨fun _ hn => absurd hf hn, fun _ => isolated_of_trace_eq ht⟩
  rw [if_neg hf] at ht
  by_cases hs : ∃ findingId runId, StorableFinding P finding findingId runId w.trace
  · obtain ⟨findingId, runId, hs⟩ := hs
    obtain ⟨findings, hins, he⟩ :=
      appendFinding_of_storable payloadHash (toISOString (O.now w.draws)) hs
    rw [he] at ht
    rw [isolated_iff (grows_handler _), ht]
    constructor
    · rintro ⟨-, hadd⟩ - id run hs'
      cases hs.bindsRun.symm.trans hs'.bindsRun
      refine hadd findingId ⟨findingId, runId, payloadHash, finding,
        toISOString (O.now w.draws)⟩ ?_ hs.fresh
      rw [Table.get_of_insert hins, if_pos rfl]
    · intro hown
      refine ⟨fun k e hk hw => ?_, fun id row hid hw => ?_⟩
      · rw [hw] at hk
        cases hk
      · rw [Table.get_of_insert hins] at hid
        split at hid
        · cases hid
          exact hown hf findingId runId hs
        · rw [hw] at hid
          cases hid
  · rw [appendFinding_of_not_storable _ _ fun id r h => hs ⟨id, r, h⟩] at ht
    exact ⟨fun _ _ id r h => absurd ⟨id, r, h⟩ hs, fun _ => isolated_of_trace_eq ht⟩

theorem isolated_handler {op : CoreOp} (hop : Writes ingesting op) :
    Isolated scope runnerId w (handler P O scope op w).2 ↔ OwnStep P O scope runnerId w op := by
  cases op with
  | appendTraceEvent event => exact isolated_appendTraceEvent event
  | appendFinding finding payloadHash => exact isolated_appendFinding finding payloadHash
  | _ => exact ⟨fun _ => trivial, fun _ => isolated_of_trace_eq (trace_handler (by rintro ⟨⟩))⟩

/-! ## A whole upload -/

/-- Two parts of an upload are isolated together when each of them is. -/
theorem isolated_trans (hg : w.trace.Grows t.trace) (hg' : t.trace.Grows u.trace)
    (hl : ∀ runId, LeasedTo scope runnerId runId t ↔ LeasedTo scope runnerId runId w) :
    Isolated scope runnerId w u ↔ Isolated scope runnerId w t ∧ Isolated scope runnerId t u := by
  rw [isolated_iff (hg.trans hg'), isolated_iff hg, isolated_iff hg']
  simp only [hl]
  constructor
  · rintro ⟨he, hf⟩
    refine ⟨⟨fun k e ht hw => he k e (hg'.events k e ht) hw,
      fun id row ht hw => hf id row (hg'.findings id row ht) hw⟩,
      fun k e hu ht => he k e hu ?_, fun id row hu ht => hf id row hu ?_⟩
    · cases hw : w.trace.events.get k with
      | none => rfl
      | some e' =>
        rw [hg.events k e' hw] at ht
        cases ht
    · cases hw : w.trace.findings.get id with
      | none => rfl
      | some row' =>
        rw [hg.findings id row' hw] at ht
        cases ht
  · rintro ⟨⟨he, hf⟩, he', hf'⟩
    refine ⟨fun k e hu hw => ?_, fun id row hu hw => ?_⟩
    · cases ht : t.trace.events.get k with
      | none => exact he' k e hu ht
      | some e' =>
        cases (hg'.events k e' ht).symm.trans hu
        exact he k e ht hw
    · cases ht : t.trace.findings.get id with
      | none => exact hf' id row hu ht
      | some row' =>
        cases (hg'.findings id row' ht).symm.trans hu
        exact hf id row ht hw

theorem grows_run {α : Type} (p : Service α) :
    w.trace.Grows (p.run (handler P O scope) w).2.trace := by
  induction p generalizing w with
  | pure a => exact .refl _
  | throw e => exact .refl _
  | call op next ih => exact (grows_handler op).trans (ih _)

/-- A program that only ingests is isolated exactly when each of its steps is. -/
theorem isolated_run_iff {α : Type} {p : Service α} (hp : p.Uses (Writes ingesting)) :
    Isolated scope runnerId w (p.run (handler P O scope) w).2 ↔
      p.Along (handler P O scope) (OwnStep P O scope runnerId) w := by
  induction p generalizing w with
  | pure a => exact ⟨fun _ => trivial, fun _ => isolated_of_trace_eq rfl⟩
  | throw e => exact ⟨fun _ => trivial, fun _ => isolated_of_trace_eq rfl⟩
  | call op next ih =>
    calc Isolated scope runnerId w (Program.run (handler P O scope) (.call op next) w).2
      _ ↔ Isolated scope runnerId w (handler P O scope op w).2 ∧
          Isolated scope runnerId (handler P O scope op w).2
            (Program.run (handler P O scope) (next _) (handler P O scope op w).2).2 :=
        isolated_trans (grows_handler op) (grows_run _) (leasedTo_handler hp.1)
      _ ↔ _ := and_congr (isolated_handler hp.1) (ih _ (hp.2 _))

/-- The operations of an upload take their events and findings from the batch. -/
def FromBatch (batch : ExecutionEventBatch) : CoreOp → Prop
  | .appendTraceEvent event => event ∈ batch.events
  | .appendFinding finding _ =>
    ∃ event ∈ batch.events, event.stage = "finding" ∧ event.payload = finding
  | op => Writes reading op

theorem ingesting_of_fromBatch {batch : ExecutionEventBatch} {op : CoreOp}
    (h : FromBatch batch op) : Writes ingesting op := by
  cases op <;> first | rfl | cases h

theorem fromBatch_of_reading {batch : ExecutionEventBatch} {op : CoreOp}
    (h : Writes reading op) : FromBatch batch op := by
  cases op <;> first | rfl | cases h

section Uses

variable (o : CoreOptions) {batch : ExecutionEventBatch}

theorem uses_ingest_event {event : TraceEvent} (he : event ∈ batch.events) :
    (TraceIngestor.ingest o.platform event).Uses (FromBatch batch) := by
  unfold TraceIngestor.ingest
  dsimp only
  split
  · trivial
  split
  · trivial
  · exact Program.uses_perform he
  · refine Program.uses_bind (Program.uses_perform rfl) fun acknowledged => ?_
    split
    · trivial
    · exact Program.uses_perform he

theorem uses_ingestEvents_batch {events : List TraceEvent} (hb : events ⊆ batch.events)
    (next : ℕ) :
    (RunnerSessionService.ingestEvents o batch events next).Uses (FromBatch batch) := by
  induction events generalizing next with
  | nil => trivial
  | cons event events ih =>
    have he : event ∈ batch.events := hb List.mem_cons_self
    have hes : events ⊆ batch.events := fun x hx => hb (List.mem_cons_of_mem _ hx)
    refine Program.uses_bind (uses_ingest_event o he) fun result => ?_
    cases result with
    | accepted next =>
      dsimp only
      split
      · next hstage =>
        exact Program.uses_bind (Program.uses_perform ⟨event, he, hstage, rfl⟩) fun _ =>
          ih hes next
      · exact ih hes next
    | duplicate next => exact ih hes next
    | _ => trivial

theorem uses_ingest_batch (sessionId : String) :
    (RunnerSessionService.ingest o sessionId batch).Uses (FromBatch batch) := by
  refine Program.uses_bind (Program.uses_perform rfl) fun session => ?_
  cases session with
  | none => trivial
  | some session =>
    refine Program.uses_bind ?_ fun _ => uses_ingestEvents_batch o (List.Subset.refl _) _
    exact (RunOwnershipService.uses_authorizeTraceUpload rfl _ batch).mono
      fun op hop => fromBatch_of_reading hop

end Uses

/-- Every event of the batch, and every finding in it, names a run of the Runner. -/
def OwnBatch (P : Platform) (scope : τ) (runnerId : String) (batch : ExecutionEventBatch)
    (w : World τ) : Prop :=
  ∀ event ∈ batch.events, LeasedTo scope runnerId event.runId w ∧
    (event.stage = "finding" → ∀ runId,
      P.bindText (SqliteTraceStore.findingField "runId" event.payload) = some runId →
      LeasedTo scope runnerId runId w)

theorem along_of_ownBatch {o : CoreOptions} {batch : ExecutionEventBatch} {sessionId : String}
    (h : OwnBatch P scope runnerId batch w) :
    (RunnerSessionService.ingest o sessionId batch).Along (handler P O scope)
      (OwnStep P O scope runnerId) w := by
  refine Program.along_of_uses (I := fun t => ∀ runId, LeasedTo scope runnerId runId t ↔
    LeasedTo scope runnerId runId w) (fun t op ht hop runId => ?_) (fun t op ht hop => ?_)
    (uses_ingest_batch o sessionId) (fun _ => Iff.rfl)
  · exact (leasedTo_handler (ingesting_of_fromBatch hop) runId).trans (ht runId)
  · cases op with
    | appendTraceEvent event => exact fun _ _ => (ht _).mpr (h event hop).1
    | appendFinding finding payloadHash =>
      obtain ⟨event, he, hstage, rfl⟩ := hop
      exact fun _ findingId runId hs => (ht _).mpr ((h event he).2 hstage runId hs.bindsRun)
    | _ => trivial

/-- The upload of a batch on a session is isolated for the Runner of the session. -/
def UploadIsolated (O : Oracle) (scope : τ) (o : CoreOptions) (w : World τ) (sessionId : String)
    (batch : ExecutionEventBatch) : Prop :=
  ∀ session, w.live sessionId = some session →
    Isolated scope session.identity.runnerId w (Program.run (handler o.platform O scope)
      (RunnerSessionService.ingest o sessionId batch) w).2

/-- Each event and each finding that the stores take from the upload names a run of the
Runner of the session. -/
def OwnUpload (O : Oracle) (scope : τ) (o : CoreOptions) (w : World τ) (sessionId : String)
    (batch : ExecutionEventBatch) : Prop :=
  ∀ session, w.live sessionId = some session →
    (RunnerSessionService.ingest o sessionId batch).Along (handler o.platform O scope)
      (OwnStep o.platform O scope session.identity.runnerId) w

end Isolation

/-! ## A hostile batch -/

/-- A finding event of a run, with its digest. -/
def sampleEvent (runId payloadHash : String) : TraceEvent where
  protocolVersion := "runner-protocol/v1"
  schemaVersion := "trace-event/v1"
  messageId := "message"
  idempotencyKey := "key"
  runId := runId
  sequenceNumber := 1
  stepIndex := none
  stage := "finding"
  occurredAt := "1970-01-01T00:00:00.000Z"
  payloadHash := payloadHash
  payload := .obj [("findingId", .str "finding"), ("runId", .str runId),
    ("title", .str "title"), ("summary", .str "summary"), ("severity", .str "high"),
    ("evidenceRefs", .arr [])]

def victimEvent : TraceEvent :=
  sampleEvent "victim" "122f57974f8b1019f836beef74921344a48df1d564b8c2865e9b1f00155c8135"

/-- The digests of the event and of its finding are known too. -/
def uploadCore : CoreOptions where
  toRunOwnershipOptions := ⟨.table (tokenDigests ++
    [((canonicalChars victimEvent.hashInput).getD [],
        "122f57974f8b1019f836beef74921344a48df1d564b8c2865e9b1f00155c8135"),
      ((canonicalChars victimEvent.payload).getD [],
        "25956ec5a79566a90b546757dcdceedce69a856e870d77c947df9160aa86ab9d")]) sampleUrls, 30000⟩
  resumeTtlMs := 60000
  welcome := sampleCore.welcome

/-- Two Runners have one run each. -/
def twoRunners : List AppEvent :=
  [openSample "runner", openSample "other", .createRun "run", .createRun "victim",
    .call (.createOffer "id0" (sampleJob "job" "run") []), .call (.accept "id0" "id13"),
    .call (.createOffer "id6" (sampleJob "other" "victim") []), .call (.accept "id6" "id20")]

/-- The world after that. -/
def sharedWorld : World Unit := (AppState.after numberedOracle () uploadCore twoRunners).world

/-- A batch of the first Runner's run that holds an event of the other's run. -/
def hostileBatch : ExecutionEventBatch := ⟨"batch", "run", 1, [victimEvent]⟩

end Qualigence.Core
