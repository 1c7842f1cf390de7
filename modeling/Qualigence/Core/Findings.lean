import Qualigence.Core.Ingestion

/-! # Findings of acknowledged events

A finding arrives inside a trace event. Core stores the event and then, in a second step,
the finding; a repeated event is recognised as a duplicate and its finding is not looked at
again. So a finding is stored whenever its event is, as long as nothing happens between the
two steps and the findings store takes what it is handed.
-/

namespace Qualigence.Core

open Foundation Protocol Trace SqliteTraceStore

/-- The finding is stored under its id with its digest. -/
def FindingStored (P : Platform) (db : TraceDb) (finding : JsValue) : Prop :=
  ∃ findingId ∈ P.bindText (findingField "findingId" finding),
    ∃ row ∈ db.findings.get findingId, row.payloadHash = canonicalPayloadHash P finding

instance (P : Platform) (db : TraceDb) (finding : JsValue) :
    Decidable (FindingStored P db finding) :=
  inferInstanceAs (Decidable (∃ findingId ∈ P.bindText (findingField "findingId" finding),
    ∃ row ∈ db.findings.get findingId, row.payloadHash = canonicalPayloadHash P finding))

/-- Every finding event that is stored has its finding stored. -/
def FindingsKept (P : Platform) (db : TraceDb) : Prop :=
  ∀ e ∈ db.events.rows, e.stage = "finding" → FindingStored P db e.payload

/-- The findings store takes the finding or has it: its id binds, and it is stored with the
same digest or can be stored for a run that has a row. -/
def takesFinding (P : Platform) (finding : JsValue) (payloadHash : Option String)
    (db : TraceDb) : Bool :=
  match P.bindText (findingField "findingId" finding) with
  | none => false
  | some findingId => match db.findings.get findingId with
    | some row => row.payloadHash = payloadHash
    | none => match P.bindText (findingField "runId" finding) with
      | none => false
      | some runId => (db.runs.get runId).isSome

section Store

variable {P : Platform} {db db' : TraceDb} {finding : JsValue}

theorem FindingStored.grows (h : FindingStored P db finding) (hg : db.Grows db') :
    FindingStored P db' finding := by
  obtain ⟨findingId, hid, row, hrow, hh⟩ := h
  exact ⟨findingId, hid, row, hg.findings findingId row hrow, hh⟩

theorem findingStored_appendFinding (createdAt : Timestamp)
    (h : takesFinding P finding (canonicalPayloadHash P finding) db) :
    FindingStored P (appendFinding P finding (canonicalPayloadHash P finding) createdAt db).2
      finding := by
  unfold takesFinding at h
  split at h
  · cases h
  next findingId hid =>
  split at h
  · next row hrow =>
    have hh : row.payloadHash = canonicalPayloadHash P finding := of_decide_eq_true h
    have hs : FindingStored P db finding := ⟨findingId, hid, row, hrow, hh⟩
    exact hs.grows (grows_appendFinding P finding _ createdAt db)
  next hfresh =>
  split at h
  · cases h
  next runId hrun =>
  obtain ⟨findings, hins, he⟩ := appendFinding_of_storable (canonicalPayloadHash P finding)
    createdAt ⟨hid, hfresh, hrun, h⟩
  rw [he]
  exact ⟨findingId, hid, _, by rw [Table.get_of_insert hins, if_pos rfl]; rfl, rfl⟩

theorem FindingsKept.of_rows (h : FindingsKept P db) (hg : db.Grows db')
    (hr : db'.events.rows = db.events.rows) : FindingsKept P db' := by
  intro e he hs
  rw [hr] at he
  exact (h e he hs).grows hg

/-- A new event leaves only its own finding to be stored. -/
theorem FindingsKept.pushed {event : TraceEvent} (h : FindingsKept P db)
    (hp : Pushed event db db')
    (hs : event.stage = "finding" → FindingStored P db' event.payload) : FindingsKept P db' := by
  intro e he hstage
  rw [hp.rows] at he
  rcases List.mem_append.mp he with he | he
  · exact (h e he hstage).grows hp.grows
  · rw [List.mem_singleton.mp he] at hstage ⊢
    exact hs hstage

end Store

/-! ## One upload -/

/-- A finding event that is stored is reported as stored, and its finding is taken. -/
def FindingStep {τ : Type} (P : Platform) (O : Oracle) (w : World τ) : CoreOp → Prop
  | .appendTraceEvent event => event.stage = "finding" → Storable event w.trace →
    O.fault w.draws ≠ .after
  | .appendFinding finding payloadHash => O.fault w.draws ≠ .before ∧
    takesFinding P finding payloadHash w.trace
  | _ => True

/-- What the ingestion of one event leaves: nothing stored and no acceptance, or the event
stored, and accepted if it is a finding event. -/
def Ingested {τ : Type} (event : TraceEvent) (w : World τ)
    (r : Except CoreError TraceAppendResult) (t : World τ) : Prop :=
  (t.trace = w.trace ∧ ∀ n, r ≠ .ok (.accepted n)) ∨
    (Pushed event w.trace t.trace ∧
      ((∃ n, r = .ok (.accepted n)) ∨ (∃ e, r = .error e) ∧ event.stage ≠ "finding"))

section Upload

variable {τ : Type} [DecidableEq τ] {P : Platform} {O : Oracle} {scope : τ} {w : World τ}

theorem ingested_appendTraceEvent {event : TraceEvent}
    (h : FindingStep P O w (.appendTraceEvent event)) :
    (Store.appendTraceEvent event).Ends (handler P O scope) (Ingested event w) w := by
  refine ends_perform (.appendTraceEvent event) ?_
  change Ingested event w (w.onTrace O (SqliteTraceStore.appendTraceEvent event)).1
    (w.onTrace O (SqliteTraceStore.appendTraceEvent event)).2
  unfold World.onTrace
  by_cases hs : Storable event w.trace
  · obtain ⟨db', he, hp⟩ := appendTraceEvent_of_storable hs
    cases hf : O.fault w.draws with
    | none =>
      simp only [he]
      exact .inr ⟨hp, .inl ⟨_, rfl⟩⟩
    | before => exact .inl ⟨rfl, by rintro _ ⟨⟩⟩
    | after =>
      simp only [he]
      exact .inr ⟨hp, .inr ⟨⟨_, rfl⟩, fun hstage => h hstage hs hf⟩⟩
  · obtain ⟨hdb, hr⟩ := appendTraceEvent_of_not_storable hs
    cases hf : O.fault w.draws with
    | none =>
      refine .inl ⟨hdb, fun n hn => ?_⟩
      dsimp only at hn
      cases hres : (SqliteTraceStore.appendTraceEvent event w.trace).1 with
      | error e =>
        rw [hres] at hn
        cases hn
      | ok res =>
        rw [hres] at hn
        cases hn
        exact hr n hres
    | before => exact .inl ⟨rfl, by rintro _ ⟨⟩⟩
    | after => exact .inl ⟨hdb, by rintro _ ⟨⟩⟩

theorem ingested_ingest {event : TraceEvent}
    (h : (TraceIngestor.ingest P event).Along (handler P O scope) (FindingStep P O) w) :
    (TraceIngestor.ingest P event).Ends (handler P O scope) (Ingested event w) w := by
  unfold TraceIngestor.ingest at h ⊢
  dsimp only at h ⊢
  split at h
  · rw [if_pos ‹_›]
    exact .inl ⟨rfl, by rintro _ ⟨⟩⟩
  rw [if_neg ‹_›]
  split at h
  · exact .inl ⟨rfl, by rintro _ ⟨⟩⟩
  · exact ingested_appendTraceEvent (Program.along_perform.mp h)
  · -- the artifacts are looked up first, which leaves the trace as it is
    rename_i referenced _ _
    obtain ⟨-, hnext⟩ := Program.along_bind.mp h
    refine Program.ends_bind (fun ids t => t = w.tick ∧ Program.Along (handler P O scope)
        (FindingStep P O) (if referenced.filter (· ∉ ids) ≠ [] then
          return .artifactUnacknowledged (referenced.filter (· ∉ ids))
        else Store.appendTraceEvent event) t)
      (ends_perform (.acknowledgedArtifactIds _ _) ⟨rfl, hnext _ rfl⟩) ?_
    rintro ids t ⟨rfl, ha⟩
    split at ha
    · rw [if_pos ‹_›]
      exact .inl ⟨rfl, by rintro _ ⟨⟩⟩
    · rw [if_neg ‹_›]
      exact ingested_appendTraceEvent (w := w.tick) (Program.along_perform.mp ha)

/-- Whatever becomes of the finding after it took effect, it is stored. -/
theorem findingsKept_appendFinding {event : TraceEvent} {db : TraceDb}
    (hk : FindingsKept P db) (hp : Pushed event db w.trace)
    (h : FindingStep P O w (.appendFinding event.payload
      (canonicalPayloadHash P event.payload))) :
    FindingsKept P (handler P O scope (.appendFinding event.payload
      (canonicalPayloadHash P event.payload)) w).2.trace := by
  have ht : (handler P O scope (.appendFinding event.payload
      (canonicalPayloadHash P event.payload)) w).2.trace =
      if O.fault w.draws = .before then w.trace
      else (appendFinding P event.payload (canonicalPayloadHash P event.payload)
        (toISOString (O.now w.draws)) w.trace).2 := onTrace_trace _
  rw [ht, if_neg h.1]
  have hstored := findingStored_appendFinding (toISOString (O.now w.draws)) h.2
  have hg := grows_appendFinding P event.payload (canonicalPayloadHash P event.payload)
    (toISOString (O.now w.draws)) w.trace
  intro e he hstage
  rw [events_appendFinding, hp.rows] at he
  rcases List.mem_append.mp he with he | he
  · exact ((hk e he hstage).grows hp.grows).grows hg
  · rw [List.mem_singleton.mp he]
    exact hstored

variable (o : CoreOptions)

theorem findingsKept_ingestEvents {batch : ExecutionEventBatch} {events : List TraceEvent}
    {next : ℕ} (hk : FindingsKept o.platform w.trace)
    (ha : (RunnerSessionService.ingestEvents o batch events next).Along
      (handler o.platform O scope) (FindingStep o.platform O) w) :
    (RunnerSessionService.ingestEvents o batch events next).Ends (handler o.platform O scope)
      (fun _ t => FindingsKept o.platform t.trace) w := by
  induction events generalizing next w with
  | nil => exact hk
  | cons event events ih =>
    unfold RunnerSessionService.ingestEvents at ha ⊢
    refine Program.ends_bind_of_along ha (fun result t => Ingested event w (.ok result) t)
      ((ingested_ingest (Program.along_bind.mp ha).1).mono ?_) fun result t hin ha => ?_
    · rintro (e | result) t hin
      · -- an exception ends the upload
        rcases hin with ⟨ht, -⟩ | ⟨hp, ⟨n, ⟨⟩⟩ | ⟨-, hstage⟩⟩
        · exact hk.of_rows (ht ▸ .refl _) (by rw [ht])
        · exact hk.pushed hp fun hs => absurd hs hstage
      · exact hin
    rcases hin with ⟨ht, hacc⟩ | ⟨hp, ⟨n, hn⟩ | ⟨⟨e, ⟨⟩⟩, -⟩⟩
    · -- nothing was stored
      have hkt : FindingsKept o.platform t.trace := ht ▸ hk
      cases result with
      | accepted n => exact absurd rfl (hacc n)
      | duplicate n => exact ih hkt ha
      | _ => exact hkt
    · -- the event was stored, and its finding is next
      cases hn
      dsimp only at ha ⊢
      split at ha
      · rw [if_pos ‹_›]
        refine Program.ends_bind_of_along ha (fun _ u => FindingsKept o.platform u.trace)
          (ends_perform (.appendFinding _ _) ?_) fun _ u hu ha => ih hu ha
        have hkept : FindingsKept o.platform (handler o.platform O scope (.appendFinding
            event.payload (canonicalPayloadHash o.platform event.payload)) t).2.trace :=
          findingsKept_appendFinding hk hp
            (Program.along_perform.mp (Program.along_bind.mp ha).1)
        split <;> exact hkept
      · rw [if_neg ‹_›]
        exact ih (hk.pushed hp fun hs => absurd hs ‹_›) ha

theorem findingsKept_ingest {batch : ExecutionEventBatch} {sessionId : String}
    (hk : FindingsKept o.platform w.trace)
    (ha : (RunnerSessionService.ingest o sessionId batch).Along (handler o.platform O scope)
      (FindingStep o.platform O) w) :
    (RunnerSessionService.ingest o sessionId batch).Ends (handler o.platform O scope)
      (fun _ t => FindingsKept o.platform t.trace) w := by
  refine Program.ends_bind_of_along ha (fun _ t => t = w)
    (ends_perform (.session sessionId) rfl) ?_
  rintro (_ | session) t rfl ha
  · exact hk
  refine Program.ends_bind_of_along ha (fun _ u => u.trace = t.trace)
    ((ends_trace (show reading .trace = false from rfl)
      (RunOwnershipService.uses_authorizeTraceUpload rfl _ batch)).mono ?_) fun _ u hu ha => ?_
  · rintro (e | _) u hu
    · exact hk.of_rows (hu ▸ .refl _) (by rw [hu])
    · exact hu
  · exact findingsKept_ingestEvents o (hu ▸ hk) ha

end Upload

/-! ## Histories -/

/-- The acknowledgement of an answered upload. -/
def ackOf : AppCall × Except CoreError AppReply → Option ExecutionEventAck
  | (.ingest _ _, .ok (.ack ack)) => some ack
  | _ => none

section Histories

variable {τ : Type}

/-- The findings of all stored events below an acknowledged number are stored. -/
def AcknowledgedFindings (P : Platform) (s : AppState τ) : Prop :=
  ∀ x ∈ s.replies, ∀ ack ∈ ackOf x, ∀ e ∈ s.world.trace.events.rows, e.runId = ack.runId →
    e.sequenceNumber < ack.nextExpectedSequenceNumber → e.stage = "finding" →
    FindingStored P s.world.trace e.payload

instance decidableFindingStep (P : Platform) (O : Oracle) (w : World τ) :
    (op : CoreOp) → Decidable (FindingStep P O w op)
  | .appendTraceEvent event => inferInstanceAs (Decidable
      (event.stage = "finding" → Storable event w.trace → O.fault w.draws ≠ .after))
  | .appendFinding finding payloadHash => inferInstanceAs (Decidable
      (O.fault w.draws ≠ .before ∧ takesFinding P finding payloadHash w.trace = true))
  | .now | .generate | .grantLease _ | .renewLease _ | .completeLease _ | .markLeaseLost _ _
  | .lease _ | .completion _ | .saveSession _ | .closeSession _ _ | .issueResumeToken _ _ _
  | .rotateResumeToken _ | .acknowledgedArtifactIds _ _ | .emit _ | .recordRun _
  | .completionSink _ | .session _ | .setSession _ | .deleteSession _ | .pendingOffer _
  | .setPendingOffer _ _ | .offerByJob _ | .offerByRun _ | .rememberOffer _ _ _ _ _ =>
    isTrue trivial

variable [DecidableEq τ]

/-- Every step of an upload keeps finding events and findings together. -/
def FindingsTaken (O : Oracle) (scope : τ) (o : CoreOptions) (s : AppState τ) :
    AppEvent → Prop
  | .call (.ingest sessionId batch) => (RunnerSessionService.ingest o sessionId batch).Along
      (handler o.platform O scope) (FindingStep o.platform O) s.world
  | _ => True

instance decidableFindingsTaken (O : Oracle) (scope : τ) (o : CoreOptions) (s : AppState τ) :
    (e : AppEvent) → Decidable (FindingsTaken O scope o s e)
  | .call (.ingest sessionId batch) => Program.decidableAlong _ _
  | .call (.openSession _ _) | .call (.createOffer _ _ _) | .call (.accept _ _)
  | .call (.renew _ _) | .call (.complete _ _ _) | .call (.closeSession _) | .createRun _
  | .restart => isTrue trivial

variable {O : Oracle} {scope : τ} {o : CoreOptions} {s : AppState τ}

omit [DecidableEq τ] in
theorem findingsKept_createRun {P : Platform} {w : World τ} (hk : FindingsKept P w.trace)
    (runId : String) : FindingsKept P (w.createRun runId).trace := by
  unfold World.createRun
  split
  · exact hk
  · exact hk

theorem findingsKept_step {e : AppEvent} (he : FindingsTaken O scope o s e)
    (hk : FindingsKept o.platform s.world.trace) :
    FindingsKept o.platform (s.step O scope o e).world.trace := by
  cases e with
  | restart => exact hk
  | createRun runId => exact findingsKept_createRun hk runId
  | call call =>
    by_cases hc : ∃ sessionId batch, call = .ingest sessionId batch
    · obtain ⟨sessionId, batch, rfl⟩ := hc
      unfold AppState.step AppCall.body
      dsimp only
      rw [Program.run_map]
      exact findingsKept_ingest o hk he
    · have ht : (s.step O scope o (.call call)).world.trace = s.world.trace :=
        trace_call (fun sessionId batch h => hc ⟨sessionId, batch, h⟩) s.world
      rw [ht]
      exact hk

/-- In every history of uploads and retries in which no step separates a finding from its
event, the findings of acknowledged events are stored. -/
theorem acknowledged_findings_stored (O : Oracle) (scope : τ) (o : CoreOptions)
    (events : List AppEvent)
    (h : Meets (AppState.step O scope o) (FindingsTaken O scope o)
      (⟨.initial, []⟩ : AppState τ) events) :
    AcknowledgedFindings o.platform (AppState.after O scope o events : AppState τ) := by
  have hk : FindingsKept o.platform (AppState.after O scope o events : AppState τ).world.trace :=
    h.foldl (I := fun s => FindingsKept o.platform s.world.trace)
      (fun s e he hs => findingsKept_step he hs) (fun e he => nomatch he)
  exact fun x _ ack _ e he _ _ hstage => hk e he hstage

end Histories

/-- A finding event of the run that the sample history leases. -/
def ownEvent : TraceEvent :=
  sampleEvent "run" "900aaadaed9a8977c067092fa43591a7d346c54fd7477d0e80f7637ccac5d1d4"

def findingCore : CoreOptions where
  toRunOwnershipOptions := ⟨.table (tokenDigests ++
    [((canonicalChars ownEvent.hashInput).getD [],
        "900aaadaed9a8977c067092fa43591a7d346c54fd7477d0e80f7637ccac5d1d4"),
      ((canonicalChars ownEvent.payload).getD [],
        "2cdcf2aa4f2a314448147471e8795cc5036e327cfa7a668aa53e8b183a75f317")]) sampleUrls, 30000⟩
  resumeTtlMs := 60000
  welcome := sampleCore.welcome

/-- A run is leased, and its finding event is uploaded and then uploaded again. -/
def uploadTwice : List AppEvent :=
  [.createRun "run", openSample "runner", .call (.createOffer "id0" (sampleJob "job" "run") []),
    .call (.accept "id0" "id7"), .call (.ingest "id0" ⟨"batch", "run", 1, [ownEvent]⟩),
    .call (.ingest "id0" ⟨"batch", "run", 1, [ownEvent]⟩)]

theorem acknowledged_findings_stored_retried :
    (Meets (AppState.step numberedOracle () findingCore)
      (FindingsTaken numberedOracle () findingCore) ⟨.initial, []⟩ uploadTwice) ∧
    ((AppState.after numberedOracle () findingCore uploadTwice :
      AppState Unit).replies.any fun x => (ackOf x).isSome) ∧
    AcknowledgedFindings findingCore.platform
      (AppState.after numberedOracle () findingCore uploadTwice : AppState Unit) := by
  have h : Meets (AppState.step numberedOracle () findingCore)
      (FindingsTaken numberedOracle () findingCore) ⟨.initial, []⟩ uploadTwice := by
    decide +kernel
  exact ⟨h, by decide +kernel, acknowledged_findings_stored _ () _ _ h⟩

/-- The step that stores the finding fails in the first upload. -/
def failingOracle : Oracle :=
  { numberedOracle with fault := fun n => if n = 15 then .before else .none }

/-- The second upload is acknowledged as a duplicate, and the finding is not stored. -/
theorem acknowledged_finding_lost :
    ¬ AcknowledgedFindings findingCore.platform
      (AppState.after failingOracle () findingCore uploadTwice : AppState Unit) := by
  unfold AcknowledgedFindings
  decide +kernel

end Qualigence.Core
