import Qualigence.Core.Ingestion
import Qualigence.Runner.Spool

/-! # Delivery of a trace from end to end

A Runner records events into its spool and pumps them to Core; Core stores what follows its
cursor and acknowledges it; the Runner deletes what is acknowledged. Batches and
acknowledgements are lost, delayed and repeated, sessions come and go, and the processes on
both sides restart. As long as recorders number the events of a run one after another,
Core holds a prefix of what was recorded and only what it holds is deleted.
-/

namespace Qualigence.Runner

open Foundation Protocol Trace Core

/-! ## The system -/

/-- Core, the spool, the recorders and pumps of the Runner process, and the batches and
acknowledgements that were ever sent. `recorded` and `deleted` only observe: the events
written to the spool by run and those that acknowledgements deleted. -/
structure DeliveryState (τ : Type) where
  core : AppState τ
  spool : SpoolDb
  recorders : ℕ → Recorder
  pumps : ℕ → Option TraceUploadPump
  sent : List ExecutionEventBatch
  acks : List ExecutionEventAck
  recorded : String → List TraceEvent
  deleted : List TraceEvent

def DeliveryState.initial {τ : Type} : DeliveryState τ where
  core := ⟨.initial, []⟩
  spool := .empty
  recorders := fun _ => .fresh
  pumps := fun _ => none
  sent := []
  acks := []
  recorded := fun _ => []
  deleted := []

inductive DeliveryEvent where
  | record (recorder : ℕ) (limits : SpoolLimits) (input : TraceEventInput)
  | startPump (pump : ℕ) (runId : String) (limit : SpoolBatchLimit)
  | submit (pump : ℕ) (batchId : String)
  | deliver (batch : ℕ) (sessionId : String)
  | acknowledge (pump ack : ℕ) (aborted : Bool)
  | abort (pump : ℕ)
  | restartRunner
  | core (event : AppEvent)

/-- An event of Core that is no upload. -/
def isUpload : AppEvent → Bool
  | .call (.ingest _ _) => true
  | _ => false

namespace DeliveryState

variable {τ : Type} [DecidableEq τ] (validObservation : JsValue → Bool) (O : Oracle) (scope : τ)
  (o : CoreOptions)

omit [DecidableEq τ] in
/-- The observed sequence of a run after an event of it was handed to the spool: a new row
with an event that was not recorded before is a new entry. -/
def observe (s : DeliveryState τ) (limits : SpoolLimits) (event : TraceEvent) :
    String → List TraceEvent :=
  if SqliteRunnerSpool.inserts limits event s.spool ∧
      jsonEvent event ∉ s.recorded event.runId then
    Function.update s.recorded event.runId (s.recorded event.runId ++ [jsonEvent event])
  else s.recorded

omit [DecidableEq τ] in
def record (i : ℕ) (limits : SpoolLimits) (input : TraceEventInput) (s : DeliveryState τ) :
    DeliveryState τ :=
  match SpoolingTraceRecorder.append o.platform validObservation limits input (s.recorders i)
    s.spool with
  | (.error _, _, _) => s
  | (.ok event, recorder, spool) =>
    { s with
      spool
      recorders := Function.update s.recorders i recorder
      recorded := s.observe limits event }

omit [DecidableEq τ] in
/-- A pump that is not waiting submits its next batch; batch ids are random and do not
repeat. -/
def submit (i : ℕ) (batchId : String) (s : DeliveryState τ) : DeliveryState τ :=
  match s.pumps i with
  | none => s
  | some pump =>
    if pump.waiting.isSome ∨ batchId ∈ s.sent.map (·.batchId) then s
    else match pump.nextBatch batchId s.spool with
      | none => s
      | some batch => match wireBatch validObservation batch with
        | none => s
        | some received =>
          { s with
            pumps := Function.update s.pumps i (some { pump with waiting := some batch })
            sent := s.sent ++ [received] }

/-- A batch that was sent arrives, now or again, and is answered if it is acknowledged. -/
def deliver (i : ℕ) (sessionId : String) (s : DeliveryState τ) : DeliveryState τ :=
  match s.sent[i]? with
  | none => s
  | some batch =>
    let answer := (RunnerSessionService.ingest o sessionId batch).run
      (handler o.platform O scope) s.core.world
    { s with
      core := s.core.step O scope o (.call (.ingest sessionId batch))
      acks := s.acks ++ answer.1.toOption.toList }

omit [DecidableEq τ] in
/-- An acknowledgement reaches the pump that waits for its batch; an abort right after the
spool is acknowledged leaves the cursor of the pump. -/
def acknowledge (i j : ℕ) (aborted : Bool) (s : DeliveryState τ) : DeliveryState τ :=
  match s.pumps i, s.acks[j]? with
  | some pump, some ack =>
    if pump.waiting.map (·.batchId) = some ack.batchId then
      let next := ack.nextExpectedSequenceNumber
      { s with
        spool := SqliteRunnerSpool.acknowledge pump.runId next s.spool
        pumps := Function.update s.pumps i
          (some (if aborted then { pump with waiting := none } else pump.advance next))
        deleted := s.deleted ++
          (s.spool.events.rows.filter (SqliteRunnerSpool.isAcknowledged pump.runId next)).map
            (·.event) }
    else s
  | _, _ => s

def step (s : DeliveryState τ) : DeliveryEvent → DeliveryState τ
  | .record i limits input => s.record validObservation o i limits input
  | .startPump i runId limit =>
    { s with pumps := Function.update s.pumps i (some (.start runId limit)) }
  | .submit i batchId => s.submit validObservation i batchId
  | .deliver i sessionId => s.deliver O scope o i sessionId
  | .acknowledge i j aborted => s.acknowledge i j aborted
  | .abort i =>
    { s with
      pumps := Function.update s.pumps i
        ((s.pumps i).map fun pump => { pump with waiting := none }) }
  | .restartRunner => { s with recorders := fun _ => .fresh, pumps := fun _ => none }
  | .core event =>
    -- uploads come from the pumps
    if isUpload event then s else { s with core := s.core.step O scope o event }

/-- The state after a sequence of events from empty stores. -/
def after (events : List DeliveryEvent) : DeliveryState τ :=
  events.foldl (step validObservation O scope o) .initial

end DeliveryState

section Property

variable {τ : Type}

/-- Core holds a contiguous prefix of the recorded events of every run, and every event
that was deleted from the spool is stored in Core. -/
structure Delivered (s : DeliveryState τ) : Prop where
  stored_prefix : ∀ runId, ∃ k ≤ (s.recorded runId).length, ∀ n,
    s.core.world.trace.events.get (runId, n) =
      if 1 ≤ n ∧ n ≤ k then (s.recorded runId)[n - 1]? else none
  deleted_stored : ∀ e ∈ s.deleted, s.core.world.trace.events.get (eventKey e) = some e

/-- A recorder that writes a new row does so under the next number of the run, or writes
again what was recorded under its number before. -/
def InOrder (validObservation : JsValue → Bool) (o : CoreOptions) (s : DeliveryState τ) :
    DeliveryEvent → Prop
  | .record i limits input =>
    let n := s.recorders i input.runId
    ∀ event ∈ (SpoolingTraceRecorder.toEvent o.platform validObservation input n).toOption,
      SqliteRunnerSpool.inserts limits event s.spool →
        n = (s.recorded input.runId).length + 1 ∨
          (s.recorded input.runId)[n - 1]? = some (jsonEvent event)
  | _ => True

instance decidableInOrder (validObservation : JsValue → Bool) (o : CoreOptions)
    (s : DeliveryState τ) : (e : DeliveryEvent) → Decidable (InOrder validObservation o s e)
  | .record i limits input => inferInstanceAs (Decidable
      (∀ event ∈ (SpoolingTraceRecorder.toEvent o.platform validObservation input
        (s.recorders i input.runId)).toOption, SqliteRunnerSpool.inserts limits event s.spool →
          s.recorders i input.runId = (s.recorded input.runId).length + 1 ∨
            (s.recorded input.runId)[s.recorders i input.runId - 1]? = some (jsonEvent event)))
  | .startPump _ _ _ | .submit _ _ | .deliver _ _ | .acknowledge _ _ _ | .abort _
  | .restartRunner | .core _ => isTrue trivial

/-! ## The invariant -/

/-- The acknowledgement answers a batch that was sent, and acknowledges at most the cursor
of its run. -/
def AckOf (s : DeliveryState τ) (ack : ExecutionEventAck) : Prop :=
  ∃ batch ∈ s.sent, ack.batchId = batch.batchId ∧ ack.runId = batch.runId ∧
    ack.nextExpectedSequenceNumber ≤ cursor batch.runId s.core.world.trace

/-- The batch has events, all of its run and recorded. -/
def Sendable (recorded : String → List TraceEvent) (batch : ExecutionEventBatch) : Prop :=
  batch.events ≠ [] ∧ ∀ e ∈ batch.events, e.runId = batch.runId ∧ e ∈ recorded batch.runId

/-- The recorded events of a run are numbered from 1 and cross the wire unchanged. -/
structure Numbered (runId : String) (events : List TraceEvent) : Prop where
  key : ∀ i e, events[i]? = some e → eventKey e = (runId, i + 1)
  wire : ∀ e ∈ events, wireEvent e = e

structure DeliveryState.Ok (s : DeliveryState τ) : Prop where
  numbered : ∀ runId, Numbered runId (s.recorded runId)
  spooled : ∀ r ∈ s.spool.events.rows, r.event ∈ s.recorded r.event.runId
  sent : ∀ batch ∈ s.sent, Sendable s.recorded batch
  sent_ids : (s.sent.map (·.batchId)).Nodup
  waiting : ∀ i pump batch, s.pumps i = some pump → pump.waiting = some batch →
    ∃ b ∈ s.sent, b.batchId = batch.batchId ∧ b.runId = pump.runId
  acks : ∀ ack ∈ s.acks, AckOf s ack
  contiguous : s.core.world.trace.Contiguous
  stored : ∀ k e, s.core.world.trace.events.get k = some e → e ∈ s.recorded k.1
  deleted : ∀ e ∈ s.deleted, s.core.world.trace.events.get (eventKey e) = some e

theorem Numbered.snoc {runId : String} {events : List TraceEvent} {e : TraceEvent}
    (h : Numbered runId events) (hk : eventKey e = (runId, events.length + 1))
    (hw : wireEvent e = e) : Numbered runId (events ++ [e]) := by
  refine ⟨fun i x hx => ?_, fun x hx => ?_⟩
  · rcases Nat.lt_or_ge i events.length with hi | hi
    · rw [List.getElem?_append_left hi] at hx
      exact h.key i x hx
    · rw [List.getElem?_append_right hi, List.getElem?_singleton] at hx
      split at hx
      · next h0 =>
        cases hx
        obtain rfl : i = events.length := by omega
        exact hk
      · cases hx
  · rcases List.mem_append.mp hx with hx | hx
    · exact h.wire x hx
    · rw [List.mem_singleton.mp hx]
      exact hw

/-- A recorded event stands at the place of its number. -/
theorem Numbered.get_of_mem {runId : String} {events : List TraceEvent} {e : TraceEvent}
    (h : Numbered runId events) (he : e ∈ events) :
    e.runId = runId ∧ 1 ≤ e.sequenceNumber ∧ events[e.sequenceNumber - 1]? = some e := by
  obtain ⟨i, hi⟩ := List.mem_iff_getElem?.mp he
  obtain ⟨hrun, hn⟩ := Prod.mk.inj (h.key i e hi)
  refine ⟨hrun, by omega, ?_⟩
  rw [hn]
  exact hi

variable {s : DeliveryState τ}

theorem numbered_nil (runId : String) : Numbered runId [] :=
  ⟨by rintro _ _ ⟨⟩, by rintro _ ⟨⟩⟩

theorem ok_initial : (DeliveryState.initial : DeliveryState τ).Ok where
  numbered := numbered_nil
  spooled := by rintro _ ⟨⟩
  sent := by rintro _ ⟨⟩
  sent_ids := List.nodup_nil
  waiting := by rintro _ _ _ ⟨⟩
  acks := by rintro _ ⟨⟩
  contiguous := TraceDb.contiguous_initial
  stored := by rintro _ _ ⟨⟩
  deleted := by rintro _ ⟨⟩

/-- What Core holds is the recorded event of that number. -/
theorem DeliveryState.Ok.get_stored (h : s.Ok) {runId : String} {n : ℕ} {e : TraceEvent}
    (he : s.core.world.trace.events.get (runId, n) = some e) :
    (s.recorded runId)[n - 1]? = some e := by
  obtain ⟨-, -, hget⟩ := (h.numbered runId).get_of_mem (h.stored _ e he)
  have hn : e.sequenceNumber = n := congrArg Prod.snd (Table.key_of_get he)
  rw [hn] at hget
  exact hget

/-- A recorded event below the cursor of its run is stored. -/
theorem DeliveryState.Ok.stored_of_lt (h : s.Ok) {runId : String} {e : TraceEvent}
    (he : e ∈ s.recorded runId) (hlt : e.sequenceNumber < cursor runId s.core.world.trace) :
    s.core.world.trace.events.get (eventKey e) = some e := by
  obtain ⟨hrun, hpos, hget⟩ := (h.numbered runId).get_of_mem he
  have hsome := (h.contiguous.stored runId e.sequenceNumber).mpr ⟨hpos, hlt⟩
  obtain ⟨e', he'⟩ := Option.isSome_iff_exists.mp hsome
  have hee : e' = e := by
    have hget' := h.get_stored he'
    rw [hget] at hget'
    exact (Option.some.inj hget').symm
  have hk : eventKey e = (runId, e.sequenceNumber) := by
    rw [← hrun]
    rfl
  rw [hk, he', hee]

theorem DeliveryState.Ok.delivered (h : s.Ok) : Delivered s := by
  refine ⟨fun runId => ⟨cursor runId s.core.world.trace - 1, ?_, fun n => ?_⟩, h.deleted⟩
  · have hpos := h.contiguous.positive runId
    rcases Nat.lt_or_ge 1 (cursor runId s.core.world.trace) with hk | hk
    · have hsome := (h.contiguous.stored runId (cursor runId s.core.world.trace - 1)).mpr
        ⟨by omega, by omega⟩
      obtain ⟨e, he⟩ := Option.isSome_iff_exists.mp hsome
      obtain ⟨hlt, -⟩ := List.getElem?_eq_some_iff.mp (h.get_stored he)
      omega
    · omega
  · have hst := h.contiguous.stored runId n
    cases hg : s.core.world.trace.events.get (runId, n) with
    | none =>
      rw [hg] at hst
      have hn : ¬ (1 ≤ n ∧ n ≤ cursor runId s.core.world.trace - 1) := by
        intro hn
        have hf := hst.mpr ⟨hn.1, by omega⟩
        cases hf
      rw [if_neg hn]
    | some e =>
      rw [hg] at hst
      obtain ⟨h1, h2⟩ := hst.mp rfl
      rw [if_pos ⟨h1, by omega⟩, h.get_stored hg]

/-! ## Steps of Core -/

theorem DeliveryState.Ok.core_advanced (h : s.Ok) {core : AppState τ} (events : List TraceEvent)
    (ha : Advanced events s.core.world.trace core.world.trace)
    (he : ∀ e ∈ events, e ∈ s.recorded e.runId) : ({ s with core } : DeliveryState τ).Ok where
  numbered := h.numbered
  spooled := h.spooled
  sent := h.sent
  sent_ids := h.sent_ids
  waiting := h.waiting
  acks ack hack := by
    obtain ⟨batch, hb, hid, hrun, hle⟩ := h.acks ack hack
    exact ⟨batch, hb, hid, hrun, hle.trans (ha.cursor_le batch.runId)⟩
  contiguous := ha.contiguous h.contiguous
  stored k e hk := by
    rcases ha.added k e hk with hold | hnew
    · exact h.stored k e hold
    · have hrun : e.runId = k.1 := congrArg Prod.fst (Table.key_of_get hk)
      exact hrun ▸ he e hnew
  deleted e hd := ha.grows.events _ e (h.deleted e hd)

theorem DeliveryState.Ok.more_acks (h : s.Ok) {acks : List ExecutionEventAck}
    (ha : ∀ ack ∈ acks, AckOf s ack) : ({ s with acks := s.acks ++ acks } : DeliveryState τ).Ok :=
  { h with
    acks := fun ack hack => by
      rcases List.mem_append.mp hack with hack | hack
      · exact h.acks ack hack
      · exact ha ack hack }

section Core

variable [DecidableEq τ] {O : Oracle} {scope : τ} {o : CoreOptions}

theorem ok_core (h : s.Ok) {event : AppEvent} (hu : isUpload event = false) :
    ({ s with core := s.core.step O scope o event } : DeliveryState τ).Ok := by
  refine h.core_advanced [] ?_ fun e he => by cases he
  cases event with
  | restart => exact .refl _ _
  | createRun runId => exact advanced_createRun s.core.world runId
  | call call =>
    have ht : (s.core.step O scope o (.call call)).world.trace = s.core.world.trace := by
      refine trace_call (fun sessionId batch hc => ?_) s.core.world
      rw [hc] at hu
      cases hu
    rw [ht]
    exact .refl _ _

theorem ok_deliver (h : s.Ok) (i : ℕ) (sessionId : String) :
    (s.deliver O scope o i sessionId).Ok := by
  unfold DeliveryState.deliver
  split
  · exact h
  next batch hb =>
  have hmem : batch ∈ s.sent := List.mem_of_getElem? hb
  obtain ⟨hne, hev⟩ := h.sent batch hmem
  have hworld : (s.core.step O scope o (.call (.ingest sessionId batch))).world =
      ((RunnerSessionService.ingest o sessionId batch).run (handler o.platform O scope)
        s.core.world).2 := by
    unfold AppState.step AppCall.body
    dsimp only
    rw [Program.run_map]
    rfl
  have hcore : ({ s with core := s.core.step O scope o (.call (.ingest sessionId batch)) } :
      DeliveryState τ).Ok := by
    refine h.core_advanced batch.events ?_ fun e he => ?_
    · rw [hworld]
      exact advanced_run (uses_ingest_batch o sessionId)
    · obtain ⟨hrun, hrec⟩ := hev e he
      rw [hrun]
      exact hrec
  refine hcore.more_acks fun ack hack => ?_
  have hack' := acknowledged_ingest (O := O) (w := s.core.world) o scope hne
    (fun e he => (hev e he).1) sessionId
  obtain ⟨hid, hrun, hle⟩ := hack' ack (by
    cases hr : ((RunnerSessionService.ingest o sessionId batch).run (handler o.platform O scope)
      s.core.world).1 with
    | error e =>
      rw [hr] at hack
      cases hack
    | ok a =>
      rw [hr] at hack
      rw [List.mem_singleton.mp hack])
  refine ⟨batch, hmem, hid, hrun, ?_⟩
  dsimp only
  rw [hworld]
  exact hle

end Core

/-! ## Steps of the Runner -/

theorem DeliveryState.Ok.observed (h : s.Ok) {recorded : String → List TraceEvent}
    (hn : ∀ runId, Numbered runId (recorded runId))
    (hsub : ∀ runId, s.recorded runId ⊆ recorded runId) :
    ({ s with recorded } : DeliveryState τ).Ok :=
  { h with
    numbered := hn
    spooled := fun r hr => hsub _ (h.spooled r hr)
    sent := fun batch hb => ⟨(h.sent batch hb).1, fun e he =>
      ⟨((h.sent batch hb).2 e he).1, hsub _ ((h.sent batch hb).2 e he).2⟩⟩
    stored := fun k e hk => hsub _ (h.stored k e hk) }

theorem DeliveryState.Ok.spool_of_rows (h : s.Ok) {spool : SpoolDb}
    (hr : ∀ r ∈ spool.events.rows, r.event ∈ s.recorded r.event.runId) :
    ({ s with spool } : DeliveryState τ).Ok :=
  { h with spooled := hr }

/-- A pump that waits for nothing is set. -/
theorem DeliveryState.Ok.update_pump (h : s.Ok) (i : ℕ) (pump : Option TraceUploadPump)
    (hp : ∀ p, pump = some p → p.waiting = none) :
    ({ s with pumps := Function.update s.pumps i pump } : DeliveryState τ).Ok :=
  { h with
    waiting := fun j q batch hq hb => by
      dsimp only at hq
      rcases eq_or_ne j i with rfl | hj
      · rw [Function.update_self] at hq
        rw [hp q hq] at hb
        cases hb
      · rw [Function.update_of_ne hj] at hq
        exact h.waiting j q batch hq hb }

section Record

variable {validObservation : JsValue → Bool} {o : CoreOptions} {limits : SpoolLimits}
  {event : TraceEvent}

/-- A new row under the next number of its run, or of an event that was recorded before. -/
theorem ok_observe (h : s.Ok) (hne : event.payload ≠ .undefined)
    (hin : SqliteRunnerSpool.inserts limits event s.spool →
      event.sequenceNumber = (s.recorded event.runId).length + 1 ∨
        (s.recorded event.runId)[event.sequenceNumber - 1]? = some (jsonEvent event)) :
    ({ s with recorded := s.observe limits event } : DeliveryState τ).Ok ∧
      (SqliteRunnerSpool.inserts limits event s.spool →
        jsonEvent event ∈ s.observe limits event event.runId) := by
  unfold DeliveryState.observe
  split
  · next hnew =>
    have hseq : event.sequenceNumber = (s.recorded event.runId).length + 1 := by
      rcases hin hnew.1 with hseq | hold
      · exact hseq
      · exact absurd (List.mem_of_getElem? hold) hnew.2
    have hnum : Numbered event.runId (s.recorded event.runId ++ [jsonEvent event]) := by
      refine (h.numbered event.runId).snoc ?_ (wireEvent_jsonEvent hne)
      rw [← hseq]
      rfl
    refine ⟨h.observed (fun runId => ?_) fun runId => ?_, fun _ => ?_⟩
    · rcases eq_or_ne runId event.runId with rfl | hr
      · rw [Function.update_self]
        exact hnum
      · rw [Function.update_of_ne hr]
        exact h.numbered runId
    · rcases eq_or_ne runId event.runId with rfl | hr
      · rw [Function.update_self]
        exact List.subset_append_left _ _
      · rw [Function.update_of_ne hr]
        exact List.Subset.refl _
    · rw [Function.update_self]
      exact List.mem_append_right _ List.mem_cons_self
  · next hold => exact ⟨h, fun hi => not_not.mp fun hmem => hold ⟨hi, hmem⟩⟩

theorem ok_record (h : s.Ok) {i : ℕ} {input : TraceEventInput}
    (hin : InOrder validObservation o s (.record i limits input)) :
    (s.record validObservation o i limits input).Ok := by
  unfold DeliveryState.record
  split
  · exact h
  next event recorder spool happ =>
  obtain ⟨hev, rfl⟩ := toEvent_of_append happ
  obtain ⟨hrun, hseq, hne⟩ := toEvent_ok hev
  have hcond : SqliteRunnerSpool.inserts limits event s.spool →
      event.sequenceNumber = (s.recorded event.runId).length + 1 ∨
        (s.recorded event.runId)[event.sequenceNumber - 1]? = some (jsonEvent event) := by
    rw [hrun, hseq]
    exact hin event (by rw [hev]; rfl)
  obtain ⟨hok, hmem⟩ := ok_observe h hne hcond
  have hrows : ∀ r ∈ (SqliteRunnerSpool.append limits event s.spool).2.events.rows,
      r.event ∈ s.observe limits event r.event.runId := by
    intro r hr
    by_cases hi : SqliteRunnerSpool.inserts limits event s.spool
    · obtain ⟨events, hins, he⟩ := append_of_inserts hi
      rw [he] at hr
      dsimp only at hr
      rw [Table.rows_of_insert hins] at hr
      rcases List.mem_append.mp hr with hr | hr
      · exact hok.spooled r hr
      · rw [List.mem_singleton.mp hr]
        exact hmem hi
    · rw [append_of_not_inserts hi] at hr
      exact hok.spooled r hr
  exact { hok.spool_of_rows hrows with }

end Record

theorem wireBatch_eq {validObservation : JsValue → Bool} {batch received : ExecutionEventBatch}
    (h : wireBatch validObservation batch = some received) :
    received = { batch with events := batch.events.map wireEvent } := by
  unfold wireBatch at h
  split at h
  · exact (Option.some.inj h).symm
  · cases h

/-- A batch that is read from the spool arrives as it was sent. -/
theorem sendable_of_nextBatch (h : s.Ok) {validObservation : JsValue → Bool}
    {pump : TraceUploadPump} {batchId : String} {batch received : ExecutionEventBatch}
    (hb : pump.nextBatch batchId s.spool = some batch)
    (hw : wireBatch validObservation batch = some received) :
    received.batchId = batchId ∧ received.runId = pump.runId ∧ Sendable s.recorded received := by
  obtain ⟨hrun, hne, hev⟩ := mem_of_nextBatch hb
  have hrec : ∀ e ∈ batch.events, e.runId = pump.runId ∧ e ∈ s.recorded pump.runId := by
    intro e he
    obtain ⟨her, r, hr, rfl⟩ := hev e he
    exact ⟨her, her ▸ h.spooled r hr⟩
  have hsame : batch.events.map wireEvent = batch.events := by
    conv_rhs => rw [← List.map_id batch.events]
    exact List.map_congr_left fun e he => (h.numbered _).wire e (hrec e he).2
  obtain rfl : received = batch := by
    rw [wireBatch_eq hw, hsame]
  refine ⟨?_, hrun, hne, fun e he => ?_⟩
  · unfold TraceUploadPump.nextBatch at hb
    split at hb
    · cases hb
    · cases hb
      rfl
  · rw [hrun]
    exact hrec e he

theorem ok_submit (h : s.Ok) {validObservation : JsValue → Bool} (i : ℕ) (batchId : String) :
    (s.submit validObservation i batchId).Ok := by
  unfold DeliveryState.submit
  split
  · exact h
  next pump hp =>
  split
  · exact h
  next hfree =>
  split
  · exact h
  next batch hb =>
  split
  · exact h
  next received hw =>
  obtain ⟨hid, hrun, hsend⟩ := sendable_of_nextBatch h hb hw
  have hbatch : batch.batchId = batchId := by
    rw [← hid, wireBatch_eq hw]
  exact
    { numbered := h.numbered
      spooled := h.spooled
      sent := fun b hmem => by
        rcases List.mem_append.mp hmem with hmem | hmem
        · exact h.sent b hmem
        · rw [List.mem_singleton.mp hmem]
          exact hsend
      sent_ids := by
        rw [List.map_append, List.map_singleton, hid]
        refine h.sent_ids.append (List.nodup_singleton _) ?_
        simpa using fun x hx hxid => hfree (.inr (List.mem_map.mpr ⟨x, hx, hxid⟩))
      waiting := fun j q b hq hwait => by
        dsimp only at hq
        rcases eq_or_ne j i with rfl | hj
        · rw [Function.update_self] at hq
          cases hq
          cases hwait
          exact ⟨received, List.mem_append_right _ List.mem_cons_self, hid.trans hbatch.symm, hrun⟩
        · rw [Function.update_of_ne hj] at hq
          obtain ⟨b', hb', hrest⟩ := h.waiting j q b hq hwait
          exact ⟨b', List.mem_append_left _ hb', hrest⟩
      acks := fun ack hack => by
        obtain ⟨b, hb, hrest⟩ := h.acks ack hack
        exact ⟨b, List.mem_append_left _ hb, hrest⟩
      contiguous := h.contiguous
      stored := h.stored
      deleted := h.deleted }

theorem ok_acknowledge (h : s.Ok) (i j : ℕ) (aborted : Bool) :
    (s.acknowledge i j aborted).Ok := by
  unfold DeliveryState.acknowledge
  split
  · next pump ack hp hack =>
    split
    · next hwait =>
      obtain ⟨batch, hb, hid⟩ := Option.map_eq_some_iff.mp hwait
      obtain ⟨b, hbm, hbid, hbrun⟩ := h.waiting i pump batch hp hb
      obtain ⟨b', hbm', hbid', -, hle⟩ := h.acks ack (List.mem_of_getElem? hack)
      -- ids do not repeat, so the acknowledgement answers the batch of this pump
      have hbb : b' = b := by
        refine List.inj_on_of_nodup_map h.sent_ids hbm' hbm ?_
        rw [← hbid', ← hid, hbid]
      rw [hbb, hbrun] at hle
      have hspool : ∀ r ∈ (SqliteRunnerSpool.acknowledge pump.runId
          ack.nextExpectedSequenceNumber s.spool).events.rows,
          r.event ∈ s.recorded r.event.runId :=
        fun r hr => h.spooled r (List.mem_of_mem_filter hr)
      have hpumps := (h.spool_of_rows hspool).update_pump i (some (if aborted then
        { pump with waiting := none } else pump.advance ack.nextExpectedSequenceNumber)) (by
          rintro _ ⟨⟩
          split <;> rfl)
      refine { hpumps with deleted := fun e he => ?_ }
      rcases List.mem_append.mp he with he | he
      · exact h.deleted e he
      · obtain ⟨r, hr, rfl⟩ := List.mem_map.mp he
        obtain ⟨hrow, hacked⟩ := List.mem_filter.mp hr
        obtain ⟨hrun, hlt⟩ := of_decide_eq_true hacked
        have hrec := h.spooled r hrow
        exact h.stored_of_lt hrec (by rw [hrun]; omega)
    · exact h
  · exact h

/-! ## Whole runs -/

section Run

variable [DecidableEq τ] {validObservation : JsValue → Bool} {O : Oracle} {scope : τ}
  {o : CoreOptions}

theorem ok_step (h : s.Ok) {e : DeliveryEvent} (he : InOrder validObservation o s e) :
    (s.step validObservation O scope o e).Ok := by
  cases e with
  | record i limits input => exact ok_record h he
  | startPump i runId limit => exact h.update_pump i _ (by rintro _ ⟨⟩; rfl)
  | submit i batchId => exact ok_submit h i batchId
  | deliver i sessionId => exact ok_deliver h i sessionId
  | acknowledge i j aborted => exact ok_acknowledge h i j aborted
  | abort i =>
    refine h.update_pump i _ fun pump hp => ?_
    obtain ⟨old, -, rfl⟩ := Option.map_eq_some_iff.mp hp
    rfl
  | restartRunner => exact { h with waiting := by rintro _ _ _ ⟨⟩ }
  | core event =>
    cases hu : isUpload event with
    | true => simpa [DeliveryState.step, hu] using h
    | false => simpa [DeliveryState.step, hu] using ok_core h hu

/-- In every run in which recorders write the events of a run in order, Core holds a
contiguous prefix of what was recorded, and only what it holds is deleted. -/
theorem trace_delivered (validObservation : JsValue → Bool) (O : Oracle) (scope : τ)
    (o : CoreOptions) (events : List DeliveryEvent)
    (h : Meets (DeliveryState.step validObservation O scope o) (InOrder validObservation o)
      .initial events) : Delivered (DeliveryState.after validObservation O scope o events) := by
  have hok : (DeliveryState.after validObservation O scope o events).Ok :=
    h.foldl (I := DeliveryState.Ok) (fun s e he hs => ok_step hs he) ok_initial
  exact hok.delivered

end Run

end Property

/-! ## A run that is recorded twice -/

def allowedInput : TraceEventInput where
  runId := "run"
  stage := "policy_authorized"
  stepIndex := none
  payload := .obj [("status", .str "allowed"), ("reason", .str "in scope")]
  payload_ne := by rintro ⟨⟩

def outcomeInput (status : String) : TraceEventInput where
  runId := "run"
  stage := "action_executed"
  stepIndex := none
  payload := .obj [("status", .str status)]
  payload_ne := by rintro ⟨⟩

/-- The digests of the events that the samples record. -/
def deliveryDigests : List (List Char × String) :=
  [(allowedInput, 1, "522443cd8fbd746f74727612c0d87802edd4e3e331d73bc01d768f9ed41f2002"),
    (outcomeInput "ok", 2, "91ca6ca06a143e6036c6a745c5a450b193653c50481f4d39972496e00d918505"),
    (outcomeInput "failed", 2,
      "4df5b7945b470279614c2d509e0d311e121cafde0f2c49c3d449884ce5ef1d98")].map
    fun (input, n, digest) => ((canonicalChars
      (SpoolingTraceRecorder.withEnvelope input n).hashInput).getD [], digest)

def deliveryCore : CoreOptions :=
  { sampleCore with platform := .table (tokenDigests ++ deliveryDigests) sampleUrls }

def sampleLimits : SpoolLimits := ⟨1000, fun _ => 10, 0⟩

/-- A run is leased and two events of it are recorded. The acknowledgement of the first
batch comes twice or is lost, and after a restart of the Runner the spool is pumped again. -/
def recordAndDeliver : List DeliveryEvent :=
  [.core (.createRun "run"), .core (openSample "runner"),
    .core (.call (.createOffer "id0" (sampleJob "job" "run") [])),
    .core (.call (.accept "id0" "id7")), .record 0 sampleLimits allowedInput,
    .record 0 sampleLimits (outcomeInput "ok"), .startPump 0 "run" ⟨1, 1000⟩,
    .submit 0 "batch0", .deliver 0 "id0", .deliver 0 "id0", .restartRunner,
    .startPump 0 "run" ⟨100, 1000⟩, .submit 0 "batch1", .deliver 1 "id0", .acknowledge 0 2 false]

theorem trace_delivered_after_restart :
    Meets (DeliveryState.step (fun _ => true) numberedOracle () deliveryCore)
      (InOrder (fun _ => true) deliveryCore) .initial recordAndDeliver ∧
    (DeliveryState.after (fun _ => true) numberedOracle () deliveryCore
      recordAndDeliver).deleted.length = 2 ∧
    Delivered (DeliveryState.after (fun _ => true) numberedOracle () deliveryCore
      recordAndDeliver) := by
  have h : Meets (DeliveryState.step (fun _ => true) numberedOracle () deliveryCore)
      (InOrder (fun _ => true) deliveryCore) .initial recordAndDeliver := by decide
  exact ⟨h, by decide +kernel, trace_delivered _ _ () _ _ h⟩

/-- After another restart the run is executed again, and its second event differs. -/
def recordAgain : List DeliveryEvent :=
  recordAndDeliver ++ ([.restartRunner, .record 0 sampleLimits allowedInput,
    .record 0 sampleLimits (outcomeInput "failed"), .startPump 0 "run" ⟨1, 1000⟩,
    .submit 0 "batch2", .deliver 2 "id0", .acknowledge 0 3 false] : List DeliveryEvent)

/-- Core answers the repeated first event with its cursor, and the second one is deleted
without ever being uploaded. -/
theorem recorded_again_deleted :
    ¬ Delivered (DeliveryState.after (fun _ => true) numberedOracle () deliveryCore
      recordAgain) := by
  intro h
  have hlost : ¬ ∀ e ∈ (DeliveryState.after (fun _ => true) numberedOracle () deliveryCore
      recordAgain).deleted, (DeliveryState.after (fun _ => true) numberedOracle () deliveryCore
        recordAgain).core.world.trace.events.get (eventKey e) = some e := by decide +kernel
  exact hlost h.deleted_stored

end Qualigence.Runner
