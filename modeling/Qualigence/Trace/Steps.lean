import Qualigence.Trace.Store

/-! # What a step of the trace store does

A step adds one event, one finding, or nothing, and never changes what is stored. When it
adds is said by conditions on the tables before the step.
-/

namespace Qualigence.Trace

open Foundation Protocol SqliteTraceStore

/-! ## Events -/

/-- The store takes the event: it is new and at the cursor of its run, its ids are unused,
and its run has a row. -/
structure Storable (event : TraceEvent) (db : TraceDb) : Prop where
  fresh : db.events.get (eventKey event) = none
  atCursor : event.sequenceNumber = cursor event.runId db
  newKey : ∀ e ∈ db.events.rows, e.idempotencyKey ≠ event.idempotencyKey
  newMessage : ∀ e ∈ db.events.rows, e.messageId ≠ event.messageId
  run : (db.runs.get event.runId).isSome

instance (event : TraceEvent) (db : TraceDb) : Decidable (Storable event db) :=
  decidable_of_iff ((db.events.get (eventKey event)).isNone ∧
    event.sequenceNumber = cursor event.runId db ∧
    (∀ e ∈ db.events.rows, e.idempotencyKey ≠ event.idempotencyKey) ∧
    (∀ e ∈ db.events.rows, e.messageId ≠ event.messageId) ∧ (db.runs.get event.runId).isSome)
    ⟨fun ⟨h1, h2, h3, h4, h5⟩ => ⟨Option.isNone_iff_eq_none.mp h1, h2, h3, h4, h5⟩,
      fun h => ⟨Option.isNone_iff_eq_none.mpr h.fresh, h.atCursor, h.newKey, h.newMessage, h.run⟩⟩

/-- The event is stored and the cursor of its run moves on. -/
structure Pushed (event : TraceEvent) (db db' : TraceDb) : Prop where
  events : db.events.insert event = some db'.events
  runs : db'.runs = db.runs.update (fun r => r.runId = event.runId)
    (·.setNext (cursor event.runId db + 1)) (RunRow.runId_setNext _)
  findings : db'.findings = db.findings

section Events

variable {event : TraceEvent} {db db' : TraceDb}

theorem appendTraceEvent_of_storable (h : Storable event db) :
    ∃ db', appendTraceEvent event db = (.ok (.accepted (cursor event.runId db + 1)), db') ∧
      Pushed event db db' := by
  have hkey : (db.events.rows.find? fun e => e.idempotencyKey = event.idempotencyKey) = none :=
    List.find?_eq_none.mpr fun e he => by simpa using h.newKey e he
  have hmsg : (db.events.rows.find? fun e => e.messageId = event.messageId) = none :=
    List.find?_eq_none.mpr fun e he => by simpa using h.newMessage e he
  obtain ⟨row, hrow⟩ := Option.isSome_iff_exists.mp h.run
  cases hins : db.events.insert event with
  | none =>
    have hs := Table.insert_eq_none_iff.mp hins
    rw [h.fresh] at hs
    cases hs
  | some events =>
    refine ⟨{ db with
      events
      runs := db.runs.update (fun r => r.runId = event.runId)
        (·.setNext (cursor event.runId db + 1)) (RunRow.runId_setNext _) }, ?_, hins, rfl, rfl⟩
    simp only [appendTraceEvent, h.fresh, h.atCursor, hkey, hmsg, insertEvent, hrow, hins,
      ne_eq, not_true_eq_false, if_false]

theorem appendTraceEvent_of_not_storable (h : ¬ Storable event db) :
    (appendTraceEvent event db).2 = db ∧
      ∀ next, (appendTraceEvent event db).1 ≠ .ok (.accepted next) := by
  unfold appendTraceEvent
  split
  · split
    · exact ⟨rfl, by rintro _ ⟨⟩⟩
    · exact ⟨rfl, by rintro _ ⟨⟩⟩
  next hfresh =>
  split
  · exact ⟨rfl, by rintro _ ⟨⟩⟩
  next hcur =>
  split
  · exact ⟨rfl, by rintro _ ⟨⟩⟩
  next hkey =>
  split
  · exact ⟨rfl, by rintro _ ⟨⟩⟩
  next hmsg =>
  unfold insertEvent
  dsimp only
  split
  · next row events hrow hins =>
    refine absurd ⟨hfresh, not_not.mp hcur, fun e he => ?_, fun e he => ?_, ?_⟩ h
    · simpa using List.find?_eq_none.mp hkey e he
    · simpa using List.find?_eq_none.mp hmsg e he
    · rw [hrow]
      rfl
  · exact ⟨rfl, by rintro _ ⟨⟩⟩

theorem Pushed.get (h : Pushed event db db') (k : String × ℕ) :
    db'.events.get k = if eventKey event = k then some event else db.events.get k :=
  Table.get_of_insert h.events

theorem Pushed.rows (h : Pushed event db db') : db'.events.rows = db.events.rows ++ [event] :=
  Table.rows_of_insert h.events

theorem Pushed.run (h : Pushed event db db') (runId : String) :
    (db'.runs.get runId).isSome = (db.runs.get runId).isSome := by
  rw [h.runs, Table.get_update, Option.isSome_map]

theorem Pushed.cursor (h : Pushed event db db') (hr : (db.runs.get event.runId).isSome)
    (runId : String) :
    cursor runId db' = if event.runId = runId then cursor runId db + 1 else cursor runId db := by
  obtain ⟨row, hrow⟩ := Option.isSome_iff_exists.mp hr
  unfold Trace.cursor
  rw [h.runs, Table.get_update]
  split
  · next he =>
    subst he
    have hk : row.runId = event.runId := Table.key_of_get hrow
    simp [hrow, hk, RunRow.setNext, Trace.cursor]
  · next he =>
    cases hg : db.runs.get runId with
    | none => rfl
    | some r =>
      have hk : r.runId = runId := Table.key_of_get hg
      have hne : r.runId ≠ event.runId := fun h => he (h.symm.trans hk)
      simp [hne]

/-- The stored events of a run are numbered from 1 up to its cursor. -/
structure TraceDb.Contiguous (db : TraceDb) : Prop where
  positive : ∀ runId, 1 ≤ Trace.cursor runId db
  stored : ∀ runId n, (db.events.get (runId, n)).isSome ↔ 1 ≤ n ∧ n < Trace.cursor runId db

theorem TraceDb.contiguous_initial : TraceDb.initial.Contiguous := by
  refine ⟨fun _ => le_rfl, fun runId n => ⟨?_, fun h => ?_⟩⟩
  · rintro ⟨⟩
  · have hlt : n < 1 := h.2
    omega

theorem TraceDb.Contiguous.pushed (hc : db.Contiguous) (hs : Storable event db)
    (hp : Pushed event db db') : db'.Contiguous := by
  refine ⟨fun runId => ?_, fun runId n => ?_⟩
  · rw [hp.cursor hs.run]
    have hpos := hc.positive runId
    split <;> omega
  · rw [hp.get, hp.cursor hs.run]
    have hpos := hc.positive event.runId
    have hcur := hs.atCursor
    by_cases hrun : event.runId = runId
    · subst hrun
      by_cases hn : event.sequenceNumber = n
      · subst hn
        simp only [eventKey, if_true, Option.isSome_some, true_iff]
        omega
      · have hk : eventKey event ≠ (event.runId, n) := fun h => hn (congrArg Prod.snd h)
        rw [if_neg hk, if_pos rfl, hc.stored]
        omega
    · have hk : eventKey event ≠ (runId, n) := fun h => hrun (congrArg Prod.fst h)
      rw [if_neg hk, if_neg hrun, hc.stored]

end Events

/-! ## Findings -/

/-- The store takes the finding under an id, for a run that has a row. -/
structure StorableFinding (P : Platform) (finding : JsValue) (findingId runId : String)
    (db : TraceDb) : Prop where
  bindsId : P.bindText (findingField "findingId" finding) = some findingId
  fresh : db.findings.get findingId = none
  bindsRun : P.bindText (findingField "runId" finding) = some runId
  run : (db.runs.get runId).isSome

section Findings

variable {P : Platform} {finding : JsValue} {findingId runId : String}
  (payloadHash : Option String) (createdAt : Timestamp) {db : TraceDb}

theorem appendFinding_of_storable (h : StorableFinding P finding findingId runId db) :
    ∃ findings, db.findings.insert ⟨findingId, runId, payloadHash, finding, createdAt⟩ =
        some findings ∧
      appendFinding P finding payloadHash createdAt db = (.ok .accepted, { db with findings }) := by
  obtain ⟨row, hrow⟩ := Option.isSome_iff_exists.mp h.run
  cases hins : db.findings.insert ⟨findingId, runId, payloadHash, finding, createdAt⟩ with
  | none =>
    have hs := Table.insert_eq_none_iff.mp hins
    rw [h.fresh] at hs
    cases hs
  | some findings =>
    refine ⟨findings, rfl, ?_⟩
    simp only [appendFinding, h.bindsId, h.fresh, h.bindsRun, hrow, hins]

theorem appendFinding_of_not_storable
    (h : ∀ findingId runId, ¬ StorableFinding P finding findingId runId db) :
    (appendFinding P finding payloadHash createdAt db).2 = db := by
  unfold appendFinding
  split
  · rfl
  next findingId hid =>
  split
  · split <;> rfl
  next hfresh =>
  split
  · rfl
  next runId hrun =>
  split
  · next row findings hrow hins =>
    refine absurd ⟨hid, hfresh, hrun, ?_⟩ (h findingId runId)
    rw [hrow]
    rfl
  · rfl

theorem events_appendFinding :
    (appendFinding P finding payloadHash createdAt db).2.events = db.events := by
  by_cases h : ∃ findingId runId, StorableFinding P finding findingId runId db
  · obtain ⟨findingId, runId, h⟩ := h
    obtain ⟨findings, -, he⟩ := appendFinding_of_storable payloadHash createdAt h
    rw [he]
  · rw [appendFinding_of_not_storable _ _ fun id r hs => h ⟨id, r, hs⟩]

theorem runs_appendFinding :
    (appendFinding P finding payloadHash createdAt db).2.runs = db.runs := by
  by_cases h : ∃ findingId runId, StorableFinding P finding findingId runId db
  · obtain ⟨findingId, runId, h⟩ := h
    obtain ⟨findings, -, he⟩ := appendFinding_of_storable payloadHash createdAt h
    rw [he]
  · rw [appendFinding_of_not_storable _ _ fun id r hs => h ⟨id, r, hs⟩]

end Findings

/-! ## Growth -/

/-- Nothing stored is lost or changed. -/
structure TraceDb.Grows (db db' : TraceDb) : Prop where
  events : ∀ k e, db.events.get k = some e → db'.events.get k = some e
  findings : ∀ id row, db.findings.get id = some row → db'.findings.get id = some row

section Grows

variable {db db' db'' : TraceDb}

theorem TraceDb.Grows.refl (db : TraceDb) : db.Grows db := ⟨fun _ _ h => h, fun _ _ h => h⟩

theorem TraceDb.Grows.trans (h : db.Grows db') (h' : db'.Grows db'') : db.Grows db'' :=
  ⟨fun k e he => h'.events k e (h.events k e he),
    fun id row hr => h'.findings id row (h.findings id row hr)⟩

theorem Pushed.grows {event : TraceEvent} (h : Pushed event db db') : db.Grows db' := by
  refine ⟨fun k e he => Table.get_of_insert_of_get h.events he, fun id row hr => ?_⟩
  rw [h.findings]
  exact hr

theorem grows_appendTraceEvent (event : TraceEvent) (db : TraceDb) :
    db.Grows (appendTraceEvent event db).2 := by
  by_cases h : Storable event db
  · obtain ⟨db', he, hp⟩ := appendTraceEvent_of_storable h
    rw [he]
    exact hp.grows
  · rw [(appendTraceEvent_of_not_storable h).1]
    exact .refl db

theorem grows_appendFinding (P : Platform) (finding : JsValue) (payloadHash : Option String)
    (createdAt : Timestamp) (db : TraceDb) :
    db.Grows (appendFinding P finding payloadHash createdAt db).2 := by
  by_cases h : ∃ findingId runId, StorableFinding P finding findingId runId db
  · obtain ⟨findingId, runId, h⟩ := h
    obtain ⟨findings, hins, he⟩ := appendFinding_of_storable payloadHash createdAt h
    rw [he]
    exact ⟨fun _ _ h => h, fun id row hr => Table.get_of_insert_of_get hins hr⟩
  · rw [appendFinding_of_not_storable _ _ fun id r hs => h ⟨id, r, hs⟩]
    exact .refl db

end Grows

end Qualigence.Trace
