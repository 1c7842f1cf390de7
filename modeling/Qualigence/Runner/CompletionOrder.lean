import Qualigence.Kernel.Laws
import Qualigence.Runner.DrainSafety

/-! # Completions after the evidence

An execution that ends with a completion has recorded it, and both compositions of the Runner drain
the artifacts and the trace of the run before they send it. What Core has acknowledged by then
depends on the drains.
-/

namespace Qualigence.Runner

open Foundation Protocol Trace Evidence Kernel Program

/-! ## The execution -/

section Completions

variable {job : AcceptedExecutionJob}

/-- A completion that a part of a run returns is one of its job. -/
def OfJob (job : AcceptedExecutionJob) (c : Option ExecutionCompletion) : Prop :=
  ∀ completion ∈ c, completion.runId = job.runId

theorem ofJob_none : OfJob job none := nofun

theorem ofJob_some {c : ExecutionCompletion} (h : c.runId = job.runId) : OfJob job (some c) := by
  rintro _ ⟨⟩
  exact h

theorem ofJob_getD {c : Option ExecutionCompletion} (h : OfJob job c) :
    (c.getD (passedCompletion job)).runId = job.runId := by
  cases c with
  | none => rfl
  | some completion => exact h completion rfl

theorem ofJob_completionOfOutcome (dispatched : Bool) (outcome : ActionOutcome) :
    OfJob job (completionOfOutcome job dispatched outcome) := by
  cases outcome with
  | ok => exact ofJob_none
  | failed errorCode =>
    rw [completionOfOutcome]
    split
    · exact ofJob_some rfl
    · exact ofJob_some rfl

theorem Produced.runId {c : ExecutionCompletion} (h : Produced job c) : c.runId = job.runId := by
  cases h <;> rfl

theorem returns_afterExecution (ordinal stepIndex : ℕ) (answer : ExecuteAnswer) :
    Returns (OfJob job) (afterExecution job ordinal stepIndex answer) := by
  unfold afterExecution
  split
  · trivial
  · exact returns_bind fun _ => ofJob_completionOfOutcome _ _

theorem returns_executeStep (step : Option ExecutionPlanStep) (ordinal stepIndex : ℕ) :
    Returns (OfJob job) (Kernel.executeStep job step ordinal stepIndex) := by
  unfold Kernel.executeStep
  refine returns_bind fun decision => returns_bind fun _ => returns_bind fun _ => ?_
  refine returns_bind fun action => returns_bind fun _ => returns_bind fun policyDecision => ?_
  cases policyDecision with
  | denied reason => exact returns_bind fun _ => ofJob_some rfl
  | allowed descriptor =>
    refine returns_bind fun _ => returns_bind fun _ => returns_bind fun answer => ?_
    exact returns_afterExecution ordinal stepIndex answer

theorem returns_verify (ordinal stepIndex : ℕ) (claimIds before after : List String) :
    Returns (OfJob job) (Kernel.verify job ordinal stepIndex claimIds before after) := by
  unfold Kernel.verify
  refine returns_bind fun verification => returns_bind fun _ => ?_
  cases verification with
  | passed => exact ofJob_none
  | failed summary severity claims => exact returns_bind fun _ => ofJob_some rfl

theorem returns_runStep (progress : Progress) (ordinal : ℕ) (step : ExecutionPlanStep) :
    Returns (fun r => OfJob job r.getLeft?) (runStep job progress ordinal step) := by
  unfold runStep
  refine returns_bind fun _ => returns_bind fun observation => ?_
  dsimp only
  split
  · refine (returns_verify _ _ _ _ _).bind fun c hc => ?_
    cases c with
    | none => exact ofJob_none
    | some completion => exact hc
  · refine (returns_executeStep _ _ _).bind fun c hc => ?_
    cases c with
    | none => exact ofJob_none
    | some completion => exact hc

theorem returns_finishSteps (plan : ExecutionJobPlanSnapshot) (progress : Progress)
    (ordinal : ℕ) :
    Returns (fun c => c.runId = job.runId) (finishSteps job plan progress ordinal) := by
  unfold finishSteps
  split
  · rfl
  · refine returns_bind fun after => (returns_verify _ _ _ _ _).bind fun c hc => ?_
    exact ofJob_getD hc

/-- How a run ends is with a completion of its job. -/
def EndsOfJob (job : AcceptedExecutionJob) (x : ℕ × Except Thrown ExecutionCompletion) : Prop :=
  ∀ c, x.2 = .ok c → c.runId = job.runId

theorem returns_runSteps (plan : ExecutionJobPlanSnapshot) (progress : Progress) (ordinal : ℕ)
    (steps : List ExecutionPlanStep) :
    Returns (EndsOfJob job) (Kernel.runSteps job plan progress ordinal steps) := by
  induction steps generalizing progress ordinal with
  | nil =>
    unfold Kernel.runSteps
    exact (returns_finishSteps plan progress ordinal).attempt.bind fun r hr => hr
  | cons step steps ih =>
    unfold Kernel.runSteps
    refine (returns_runStep progress ordinal step).attempt.bind fun r hr => ?_
    match r with
    | .error e => exact nofun
    | .ok (.inl completion) =>
      rintro _ ⟨⟩
      exact hr _ rfl completion rfl
    | .ok (.inr progress') => exact ih _ _

theorem returns_runObjectiveOnly :
    Returns (fun c => c.runId = job.runId) (Kernel.runObjectiveOnly job) := by
  unfold Kernel.runObjectiveOnly
  refine returns_bind fun _ => returns_bind fun before => ?_
  refine (returns_executeStep none 0 0).bind fun c hc => ?_
  cases c with
  | some completion => exact hc completion rfl
  | none =>
    refine returns_bind fun after => (returns_verify _ _ _ _ _).bind fun c hc => ?_
    exact ofJob_getD hc

theorem returns_runUntilCompletion :
    Returns (EndsOfJob job) (Kernel.runUntilCompletion job) := by
  unfold Kernel.runUntilCompletion
  split
  · exact returns_runObjectiveOnly.attempt.bind fun r hr => hr
  · exact returns_runSteps _ _ _ _

end Completions

section Execution

open ServeWorld

variable {P : Platform} {validObservation : JsValue → Bool} {scope : ServeScope}
  {circumstances : ℕ → ServeCircumstances} {w : ServeWorld}

/-- The invariant, before the completion of some runs. -/
def Before (scope : ServeScope) (runIds : List String) (w : ServeWorld) : Prop :=
  Inv scope w ∧ ∀ c ∈ w.completions, c.runId ∉ runIds

theorem Before.follows {runIds : List String} {t : ServeWorld} (h : Before scope runIds w)
    (ht : Inv scope t) (hf : Follows w t) : Before scope runIds t :=
  ⟨ht, fun c hc => h.2 c (hf.completions ▸ hc)⟩

/-- Operations that neither take something out of the spool nor complete a run. -/
def Recording (scope : ServeScope) : ServeOp → Prop
  | .complete .. | .upload (.acknowledge ..)
  | .upload (.artifact (.acknowledgeArtifactProgress _)) => False
  | .upload (.artifact (.saveArtifactManifest _)) => scope.tenantId ≠ none
  | _ => True

theorem inserted_of_append {limits : SpoolLimits} {event : TraceEvent} {db db' : SpoolDb}
    {r : Except RunnerSpoolError Unit}
    (h : SqliteRunnerSpool.append limits event db = (r, db')) :
    (∀ row ∈ db.events.rows, row ∈ db'.events.rows) ∧
      (r = .ok () → ∃ row ∈ db'.events.rows, row.key = eventKey event) := by
  unfold SqliteRunnerSpool.append at h
  dsimp only at h
  split at h
  · next existing hg =>
    have hrow := Table.mem_of_get hg
    have hkey : existing.key = eventKey event := Table.key_of_get hg
    split at h
    · cases h
      exact ⟨fun _ hr => hr, fun _ => ⟨existing, hrow, hkey⟩⟩
    · cases h
      exact ⟨fun _ hr => hr, nofun⟩
  · split at h
    · cases h
      exact ⟨fun _ hr => hr, nofun⟩
    · split at h
      · next events hins =>
        cases h
        have hrows := Table.rows_of_insert hins
        refine ⟨fun row hr => ?_, fun _ =>
          ⟨⟨jsonEvent event, limits.measureEventBytes event⟩, ?_, rfl⟩⟩
        · rw [hrows]
          exact List.mem_append_left _ hr
        · rw [hrows]
          exact List.mem_append_right _ List.mem_cons_self
      · cases h
        exact ⟨fun _ hr => hr, nofun⟩

theorem stage_of_toEvent {input : TraceEventInput} {n : ℕ} {event : TraceEvent}
    (h : SpoolingTraceRecorder.toEvent P validObservation input n = .ok event) :
    event.stage = input.stage := by
  unfold SpoolingTraceRecorder.toEvent at h
  split at h
  · cases h
  split at h
  · next hash =>
    cases h
    obtain ⟨payloadHash, -, rfl⟩ := Option.map_eq_some_iff.mp hash
    rfl
  · cases h

/-- An event that is recorded is in the spool under its number. -/
theorem recorded_of_append {limits : SpoolLimits} {input : TraceEventInput}
    {recorder recorder' : Recorder} {db db' : SpoolDb} {r : Except RecordError TraceEvent}
    (h : SpoolingTraceRecorder.append P validObservation limits input recorder db =
      (r, recorder', db')) :
    (∀ row ∈ db.events.rows, row ∈ db'.events.rows) ∧
      (∀ runId, recorder runId ≤ recorder' runId) ∧
      ∀ event, r = .ok event → event.runId = input.runId ∧ event.stage = input.stage ∧
        event.sequenceNumber = recorder input.runId ∧
        ∃ row ∈ db'.events.rows, row.key = eventKey event := by
  unfold SpoolingTraceRecorder.append at h
  dsimp only at h
  split at h
  · cases h
    exact ⟨fun _ hr => hr, fun _ => le_rfl, nofun⟩
  · next event hevent =>
    split at h
    · next u db'' happ =>
      cases h
      obtain ⟨hrows, hkey⟩ := inserted_of_append happ
      obtain ⟨hrun, hseq, -⟩ := toEvent_ok hevent
      refine ⟨hrows, fun runId => ?_, ?_⟩
      · rw [Function.update_apply]
        split
        · next heq =>
          rw [heq]
          exact Nat.le_succ _
        · exact le_rfl
      · rintro _ ⟨⟩
        exact ⟨hrun, stage_of_toEvent hevent, hseq, hkey rfl⟩
    · next cause db'' happ =>
      cases h
      exact ⟨(inserted_of_append happ).1, fun _ => le_rfl, nofun⟩

/-- Recording an event keeps the invariant; an event that is recorded is one of the run. -/
theorem Before.append {runIds : List String} (h : Before scope runIds w) (e : ServeCircumstances)
    (runId stage : String) (stepIndex : Option ℕ) :
    Before scope runIds (w.append P validObservation e runId stage stepIndex).2 ∧
      ((w.append P validObservation e runId stage stepIndex).1 = .ok () →
        ∃ event ∈ (w.append P validObservation e runId stage stepIndex).2.recorded,
          event.runId = runId ∧ event.stage = stage) := by
  unfold ServeWorld.append
  split
  · next event recorder trace happ =>
    obtain ⟨hrows, hrec, hnew⟩ := recorded_of_append happ
    obtain ⟨hrun, hstage, hseq, row, hrow, hkey⟩ := hnew event rfl
    refine ⟨⟨⟨?_, ?_, fun id => (h.1.recorder id).trans (hrec id), h.1.spooled, h.1.progress,
      h.1.tenant⟩, h.2⟩, fun _ => ⟨event, List.mem_append_right _ List.mem_cons_self, hrun, hstage⟩⟩
    · intro event' he
      rcases List.mem_append.mp he with he | he
      · obtain ⟨r, hr, hk⟩ := h.1.traced event' he
        exact ⟨r, hrows r hr, hk⟩
      · rw [List.mem_singleton.mp he]
        exact ⟨row, hrow, hkey⟩
    · intro event' he
      rcases List.mem_append.mp he with he | he
      · exact h.1.positive event' he
      · rw [List.mem_singleton.mp he, hseq]
        exact h.1.recorder _
  · next cause recorder trace happ =>
    obtain ⟨hrows, hrec, -⟩ := recorded_of_append happ
    refine ⟨⟨⟨fun event' he => ?_, h.1.positive, fun id => (h.1.recorder id).trans (hrec id),
      h.1.spooled, h.1.progress, h.1.tenant⟩, h.2⟩, nofun⟩
    obtain ⟨r, hr, hk⟩ := h.1.traced event' he
    exact ⟨r, hrows r hr, hk⟩

theorem Before.saveArtifactManifest {runIds : List String} (h : Before scope runIds w)
    (ht : scope.tenantId ≠ none) (e : ServeCircumstances) (manifest : ArtifactUploadManifest) :
    Before scope runIds (w.saveArtifactManifest e manifest).2 := by
  unfold ServeWorld.saveArtifactManifest
  split
  · next u artifacts hs =>
    obtain ⟨hprogress, hrows, hnew⟩ := saved_of_saveArtifactManifest hs
    refine ⟨⟨h.1.traced, h.1.positive, h.1.recorder, fun m hm => ?_,
      fun id p hp => h.1.progress id p (hprogress ▸ hp), fun hn => absurd hn ht⟩, h.2⟩
    rcases List.mem_append.mp hm with hm | hm
    · obtain ⟨r, hr, hk⟩ := h.1.spooled m hm
      exact ⟨r, hrows r hr, hk⟩
    · rw [List.mem_singleton.mp hm]
      exact hnew rfl
  · next cause artifacts hs =>
    obtain ⟨hprogress, hrows, -⟩ := saved_of_saveArtifactManifest hs
    refine ⟨⟨h.1.traced, h.1.positive, h.1.recorder, fun m hm => ?_,
      fun id p hp => h.1.progress id p (hprogress ▸ hp), h.1.tenant⟩, h.2⟩
    obtain ⟨r, hr, hk⟩ := h.1.spooled m hm
    exact ⟨r, hrows r hr, hk⟩

theorem Before.draws {runIds : List String} (h : Before scope runIds w) (n : ℕ) :
    Before scope runIds { w with draws := n } :=
  ⟨h.1.draws n, h.2⟩

theorem Before.upload {runIds : List String} (h : Before scope runIds w) (P : Platform)
    (e : ServeCircumstances) (op : ReplayOp) (hop : Safe w op) :
    Before scope runIds (ServeWorld.upload P e op w).2 := by
  obtain ⟨ht, hf⟩ := h.1.upload P e op hop
  exact h.follows ht hf

/-- What is recorded keeps the invariant. -/
theorem Before.step {runIds : List String} (h : Before scope runIds w) (P : Platform)
    (validObservation : JsValue → Bool) (circumstances : ℕ → ServeCircumstances) (op : ServeOp)
    (hop : Recording scope op) :
    Before scope runIds (ServeWorld.handler P validObservation circumstances op w).2 := by
  have hd := h.draws (w.draws + 1)
  have hspool : ∀ {α : Type} (r : ServeWorld.Outcome α), Before scope runIds r.2 →
      Before scope runIds (spooling (circumstances w.draws) { w with draws := w.draws + 1 } r).2 :=
    fun r hr => spooling_snd (Q := Before scope runIds) hd hr
  cases op with
  | upload op =>
    cases op with
    | artifact op =>
      cases op with
      | saveArtifactManifest manifest =>
        exact hspool _ (hd.saveArtifactManifest hop _ manifest)
      | acknowledgeArtifactProgress progress => exact hop.elim
      | saveArtifactChunk chunk => exact hd.upload P _ (.artifact (.saveArtifactChunk chunk)) trivial
      | pendingArtifactManifests runId => exact hspool _ hd
      | pendingArtifactChunks runId artifactId missingRanges => exact hspool _ hd
      | artifactUploadProgress runId artifactId => exact hspool _ hd
      | registerArtifactManifest r =>
        exact hd.upload P _ (.artifact (.registerArtifactManifest r)) trivial
      | uploadArtifactChunk u => exact hd.upload P _ (.artifact (.uploadArtifactChunk u)) trivial
    | acknowledge runId next => exact hop.elim
    | submit batch => exact hd.upload P _ (.submit batch) trivial
    | pending runId fromSequence limit => exact hspool _ hd
    | pendingRunIds => exact hspool _ hd
    | throwIfAborted | loadLeaseForRun _ | batchLimit | generateBatchId => exact hd
  | append runId stage stepIndex => exact hspool _ (hd.append _ runId stage stepIndex).1
  | complete lease completion => exact hop.elim
  | newRecorder =>
    exact ⟨⟨hd.1.traced, hd.1.positive, fun _ => le_rfl, hd.1.spooled, hd.1.progress, hd.1.tenant⟩,
      hd.2⟩
  | accept _ | saveLease _ | loadLease _ | currentLease | assertLeaseActive | «open» _
  | observe _ | captureError _ | dependency _ | finish _ | closeResources | dispose => exact hd

theorem careful_recording {runIds : List String} {α : Type} {p : Serving α}
    (hu : Uses (Recording scope) p) (h : Before scope runIds w) :
    Careful (ServeWorld.handler P validObservation circumstances) (Provided circumstances)
      EvidenceFirst (Before scope runIds) (fun _ => Before scope runIds) p w := by
  refine careful_of_uses (fun t op ht hop _ => ⟨?_, ht.step P _ _ op hop⟩) hu h
  cases op with
  | complete lease completion => exact hop.elim
  | _ => trivial

section Uses

variable (job : AcceptedExecutionJob)

theorem uses_saveChunks (chunks : List ArtifactUploadChunk) :
    Uses (fun op => Recording scope (.upload (.artifact op)))
      (SpoolingArtifactObserver.saveChunks chunks) := by
  induction chunks with
  | nil => trivial
  | cons chunk chunks ih => exact uses_bind (uses_perform trivial) fun _ => ih

theorem uses_spoolArtifacts (ht : scope.tenantId ≠ none) (tenantId projectId runId : String)
    (artifacts : List RawCapturedArtifact) :
    Uses (fun op => Recording scope (.upload (.artifact op)))
      (SpoolingArtifactObserver.spoolArtifacts P tenantId projectId runId artifacts) := by
  induction artifacts with
  | nil => trivial
  | cons artifact artifacts ih =>
    unfold SpoolingArtifactObserver.spoolArtifacts
    refine uses_bind (uses_perform ht) fun _ => ?_
    exact uses_bind (uses_saveChunks _) fun _ => uses_bind ih fun _ => trivial

theorem uses_attempt {S : Signature} {ε α : Type} {ok : S.Op → Prop} {p : Program S ε α}
    (hp : Uses ok p) : Uses ok p.attempt :=
  uses_tryCatch (uses_bind hp fun _ => trivial) fun _ => trivial

theorem uses_captureArtifacts (ordinal : ℕ) :
    Uses (Recording scope) (captureArtifacts P scope job ordinal) := by
  unfold captureArtifacts
  refine uses_bind (uses_perform trivial) fun observed => ?_
  split
  · next tenantId ui ht _ =>
    have htenant : scope.tenantId ≠ none := by
      rw [ht]
      exact nofun
    refine uses_bind (uses_attempt (uses_relabel (uses_relabel (uses_spoolArtifacts htenant _ _ _
      _)))) fun spooled => ?_
    cases spooled with
    | ok artifactRefs => trivial
    | error e => exact uses_bind (uses_perform trivial) fun _ => trivial
  · trivial

theorem uses_serveDependency (op : RuntimeOp) :
    Uses (Recording scope) (serveDependency P scope job op) := by
  cases op with
  | capture ordinal => exact uses_captureArtifacts job ordinal
  | _ => exact uses_perform trivial

end Uses

/-- The run is completed in its trace. -/
def Terminated (runId : String) (w : ServeWorld) : Prop :=
  ∃ event ∈ w.recorded, event.runId = runId ∧ event.stage = "run_completed"

theorem terminated_of_append {runIds : List String} {runId : String} {stepIndex : Option ℕ}
    (h : Before scope runIds w)
    (hr : (ServeWorld.handler P validObservation circumstances
      (.append runId "run_completed" stepIndex) w).1 = .ok ()) :
    Terminated runId (ServeWorld.handler P validObservation circumstances
      (.append runId "run_completed" stepIndex) w).2 := by
  obtain ⟨heq, hok⟩ := spooling_ok hr
  change Terminated runId (spooling _ _ _).2
  rw [heq]
  exact ((h.draws (w.draws + 1)).append _ runId "run_completed" stepIndex).2 hok

theorem careful_append {runIds : List String} (runId : String) (stepIndex : Option ℕ)
    (h : Before scope runIds w) :
    Careful (ServeWorld.handler P validObservation circumstances) (Provided circumstances)
      EvidenceFirst (Before scope runIds)
      (fun _ t => Before scope runIds t ∧ Terminated runId t)
      (Serving.perform (.append runId "run_completed" stepIndex)) w := by
  have hstep := h.step P validObservation circumstances (.append runId "run_completed" stepIndex)
    trivial
  exact careful_perform (S := serveSignature) (.append runId "run_completed" stepIndex)
    (fun _ => trivial) (fun _ _ hr => ⟨hstep, terminated_of_append h hr⟩) fun _ => hstep

theorem careful_recordTerminal {runIds : List String} {job : AcceptedExecutionJob}
    (stepIndex : ℕ) {completion : ExecutionCompletion} (hc : completion.runId = job.runId)
    (h : Before scope runIds w) :
    Careful (ServeWorld.handler P validObservation circumstances) (Provided circumstances)
      EvidenceFirst (Before scope runIds)
      (fun c t => Before scope runIds t ∧ c.runId = job.runId ∧ Terminated job.runId t)
      (translate (serveDependency P scope job) (recordTerminal job stepIndex completion)) w := by
  exact careful_translate_call (P := fun _ t => Before scope runIds t ∧ Terminated job.runId t)
    (careful_append job.runId _ h) (fun a t ht => ⟨ht.1, hc, ht.2⟩) fun e t ht => ht

/-- An execution that ends with a completion has recorded it. -/
theorem careful_execution {runIds : List String} (job : AcceptedExecutionJob)
    (h : Before scope runIds w) :
    Careful (ServeWorld.handler P validObservation circumstances) (Provided circumstances)
      EvidenceFirst (Before scope runIds)
      (fun c t => Before scope runIds t ∧ c.runId = job.runId ∧ Terminated job.runId t)
      (execution P scope job) w := by
  unfold execution Kernel.run
  have hkeep : ∀ op t, Before scope runIds t →
      Careful (ServeWorld.handler P validObservation circumstances) (Provided circumstances)
        EvidenceFirst (Before scope runIds) (fun _ => Before scope runIds)
        (serveDependency P scope job op) t :=
    fun op t ht => careful_recording (uses_serveDependency job op) ht
  refine careful_translate_bind (careful_translate hkeep (returns_true _) h) fun _ t₁ ht₁ => ?_
  refine careful_translate_bind (careful_translate hkeep returns_runUntilCompletion ht₁.1) ?_
  rintro ⟨stepIndex, result⟩ t₂ ⟨ht₂, hends⟩
  cases result with
  | ok completion => exact careful_recordTerminal stepIndex (hends completion rfl) ht₂
  | error e =>
    dsimp only
    split
    · next completion hc =>
      exact careful_recordTerminal stepIndex (produced_of_error hc).runId ht₂
    · exact ht₂

end Execution

/-! ## The compositions -/

section Compositions

open ServeWorld

variable {P : Platform} {validObservation : JsValue → Bool} {scope : ServeScope}
  {circumstances : ℕ → ServeCircumstances} {w : ServeWorld} {α : Type}

/-- Operations that only ask. -/
def Quiet : ServeOp → Prop
  | .complete .. | .append .. | .upload (.acknowledge ..)
  | .upload (.artifact (.acknowledgeArtifactProgress _))
  | .upload (.artifact (.saveArtifactManifest _)) => False
  | _ => True

theorem ServeWorld.Inv.quiet (h : Inv scope w) (P : Platform) (validObservation : JsValue → Bool)
    (circumstances : ℕ → ServeCircumstances) (op : ServeOp) (hq : Quiet op) :
    Inv scope (ServeWorld.handler P validObservation circumstances op w).2 ∧
      Follows w (ServeWorld.handler P validObservation circumstances op w).2 := by
  cases op with
  | upload op =>
    refine h.handled P validObservation circumstances ?_
    cases op with
    | artifact op => cases op <;> first | exact hq.elim | trivial
    | acknowledge runId next => exact hq.elim
    | _ => trivial
  | append runId stage stepIndex => exact hq.elim
  | complete lease completion => exact hq.elim
  | newRecorder =>
    exact ⟨⟨h.traced, h.positive, fun _ => le_rfl, h.spooled, h.progress, h.tenant⟩, rfl, rfl,
      fun _ he => he, fun _ hm => hm⟩
  | _ => exact ⟨h.draws (w.draws + 1), rfl, rfl, fun _ he => he, fun _ hm => hm⟩

/-- An operation that only asks, and what follows an answer to it. -/
theorem careful_ask (op : ServeOp) {f : op.Reply → Serving α} {Q : α → ServeWorld → Prop}
    (hq : Quiet op) (h : Inv scope w)
    (hf : ∀ a t, Provided circumstances w op →
      ServeWorld.handler P validObservation circumstances op w = (.ok a, t) →
      Inv scope t → Follows w t → CarefulServing P validObservation scope circumstances Q (f a) t) :
    CarefulServing P validObservation scope circumstances Q ((Serving.perform op).bind f) w := by
  obtain ⟨hinv, hfollows⟩ := h.quiet P validObservation circumstances op hq
  refine careful_step (fun _ => ?_)
    (fun a hc hr => hf a _ hc (Prod.ext hr rfl) hinv hfollows) fun _ => hinv
  cases op with
  | complete lease completion => exact hq.elim
  | _ => trivial

theorem careful_last (op : ServeOp) (hq : Quiet op) (h : Inv scope w) :
    CarefulServing P validObservation scope circumstances (fun _ => Inv scope)
      (Serving.perform op) w := by
  obtain ⟨hinv, -⟩ := h.quiet P validObservation circumstances op hq
  refine careful_perform (S := serveSignature) op (fun _ => ?_) (fun _ _ _ => hinv) fun _ => hinv
  cases op with
  | complete lease completion => exact hq.elim
  | _ => trivial

/-- The evidence of a run is at Core, and it has not been completed. -/
def Ready (runId : String) (w : ServeWorld) : Prop :=
  w.Acknowledged runId ∧ ∀ c ∈ w.completions, c.runId ≠ runId

theorem Terminated.follows {runId : String} {t : ServeWorld} (h : Terminated runId w)
    (hf : Follows w t) : Terminated runId t := by
  obtain ⟨event, he, hevent⟩ := h
  exact ⟨event, hf.recorded ▸ he, hevent⟩

theorem Ready.follows {runId : String} {t : ServeWorld} (h : Ready runId w) (hf : Follows w t) :
    Ready runId t :=
  ⟨⟨Terminated.follows h.1.1 hf, fun e he => h.1.2.1 e (hf.events e he),
    fun m hm => h.1.2.2 m (hf.artifacts m hm)⟩, fun c hc => h.2 c (hf.completions ▸ hc)⟩

theorem careful_complete (lease : ExecutionJobLease) (completion : ExecutionCompletion)
    (h : Inv scope w) (hr : Ready completion.runId w) :
    CarefulServing P validObservation scope circumstances (fun _ => Inv scope)
      (Serving.perform (.complete lease completion)) w := by
  have hinv : Inv scope (ServeWorld.handler P validObservation circumstances
      (.complete lease completion) w).2 :=
    ⟨h.traced, h.positive, h.recorder, h.spooled, h.progress, h.tenant⟩
  exact careful_perform (S := serveSignature) (.complete lease completion) (fun _ => hr)
    (fun _ _ _ => hinv) fun _ => hinv

theorem careful_sendCompletion (completion : ExecutionCompletion) (h : Inv scope w)
    (hr : Ready completion.runId w) :
    CarefulServing P validObservation scope circumstances (fun _ => Inv scope)
      (sendCompletion completion) w := by
  unfold sendCompletion
  refine careful_ask _ trivial h fun _ t₁ _ _ h₁ hf₁ => ?_
  refine careful_ask _ trivial h₁ fun lease t₂ _ _ h₂ hf₂ => ?_
  exact careful_complete lease completion h₂ ((hr.follows hf₁).follows hf₂)

theorem careful_drainArtifacts (fuel : ℕ) (lease : ExecutionJobLease) (runId : String)
    (h : Inv scope w) :
    CarefulServing P validObservation scope circumstances
      (fun _ t => Inv scope t ∧ Follows w t ∧ Uploaded runId t)
      (drainArtifacts fuel lease runId) w :=
  careful_bind (careful_drainArtifactPump h).replayed.served fun _ _ ht => ht

theorem careful_drainOwnArtifacts (fuel : ℕ) (runId : String) (h : Inv scope w) :
    CarefulServing P validObservation scope circumstances
      (fun _ t => Inv scope t ∧ Follows w t ∧ Uploaded runId t)
      (drainOwnArtifacts fuel runId) w := by
  refine careful_ask _ trivial h fun lease t _ _ ht hf => ?_
  refine Careful.mono (fun _ u hu => ?_) (careful_drainArtifacts fuel lease runId ht)
  exact ⟨hu.1, hf.trans hu.2.1, hu.2.2⟩

theorem careful_drainTrace (fuel : ℕ) (runId : String) (h : Inv scope w) :
    CarefulServing P validObservation scope circumstances
      (fun _ t => Inv scope t ∧ Follows w t ∧ Drained runId t) (drainTrace fuel runId) w := by
  refine careful_ask _ trivial h fun limit t _ _ ht hf => ?_
  have hreached : Reached runId 1 t := fun event he _ => ht.positive event he
  refine Careful.mono (fun _ u hu => ?_) (careful_drainPump ht hreached).served
  exact ⟨hu.1, hf.trans hu.2.1, hu.2.2⟩

/-- A run that is completed in its trace and nowhere else, with its artifacts at Core, becomes ready
when its trace is drained. -/
theorem careful_drained (fuel : ℕ) {runId : String} {runIds : List String}
    (h : Before scope runIds w) (hid : runId ∈ runIds) (ht : Terminated runId w)
    (hu : Uploaded runId w) :
    CarefulServing P validObservation scope circumstances
      (fun _ t => Inv scope t ∧ Ready runId t) (drainTrace fuel runId) w := by
  refine Careful.mono (fun _ t hd => ?_) (careful_drainTrace fuel runId h.1)
  have hb := h.follows hd.1 hd.2.1
  refine ⟨hd.1, ⟨ht.follows hd.2.1, hd.2.2, hu.follows hd.2.1⟩, fun c hc heq => ?_⟩
  exact hb.2 c hc (heq ▸ hid)

section Offer

variable (fuel : ℕ)

theorem careful_finalize {runIds : List String} (completion : ExecutionCompletion)
    (h : Before scope runIds w) (hid : completion.runId ∈ runIds)
    (ht : Terminated completion.runId w) :
    CarefulServing P validObservation scope circumstances (fun _ => Inv scope)
      (RunnerOfferRuntime.finalize scope fuel completion) w := by
  unfold RunnerOfferRuntime.finalize
  have huploaded : CarefulServing P validObservation scope circumstances
      (fun _ t => Inv scope t ∧ Follows w t ∧ Uploaded completion.runId t)
      (onlyIf scope.tenantId.isSome (drainOwnArtifacts fuel completion.runId)) w := by
    unfold onlyIf
    split
    · exact careful_drainOwnArtifacts fuel completion.runId h.1
    · next hnone =>
      refine ⟨h.1, Follows.refl w, fun m hm => ?_⟩
      rw [h.1.tenant (by simpa using hnone)] at hm
      exact absurd hm List.not_mem_nil
  refine careful_bind huploaded ?_
  rintro _ t₁ ⟨h₁, hf₁, hu₁⟩
  refine careful_bind (careful_drained fuel (h.follows h₁ hf₁) hid (ht.follows hf₁) hu₁) ?_
  rintro _ t₂ ⟨h₂, hr₂⟩
  exact careful_sendCompletion completion h₂ hr₂

theorem careful_duringLease {operation : Serving Unit}
    (h : Inv scope w)
    (hop : ∀ t, Inv scope t → Follows w t →
      CarefulServing P validObservation scope circumstances (fun _ => Inv scope) operation t) :
    CarefulServing P validObservation scope circumstances (fun _ => Inv scope)
      (AcceptedLeaseLifecycle.duringLease operation) w := by
  unfold AcceptedLeaseLifecycle.duringLease
  refine careful_ask _ trivial h fun _ t _ _ ht hf => ?_
  refine careful_bind (hop t ht hf) fun _ u hu => ?_
  exact careful_ask _ trivial hu fun _ v _ _ hv _ => hv

theorem careful_completeTargetError {runIds : List String} (lease : ExecutionJobLease)
    (errorCode : String) (completionStatus : ExecutionTargetErrorStatus)
    (h : Before scope runIds w) (hid : lease.runId ∈ runIds) :
    CarefulServing P validObservation scope circumstances (fun _ => Inv scope)
      (RunnerOfferRuntime.completeTargetError scope fuel lease errorCode completionStatus) w := by
  have hrun : (RunnerOfferRuntime.completionForTargetError lease errorCode
      completionStatus).runId = lease.runId := by
    cases completionStatus <;> rfl
  unfold RunnerOfferRuntime.completeTargetError
  refine careful_ask _ trivial h.1 fun _ t₁ _ _ h₁ hf₁ => ?_
  have hb₁ := h.follows h₁ hf₁
  have happ : CarefulServing P validObservation scope circumstances
      (fun _ t => Before scope runIds t ∧ Terminated lease.runId t)
      (AcceptedLeaseLifecycle.duringLease
        (Serving.perform (.append lease.runId "run_completed" none))) t₁ := by
    unfold AcceptedLeaseLifecycle.duringLease
    refine careful_ask _ trivial hb₁.1 fun _ t _ _ ht hf => ?_
    refine careful_bind ((careful_append lease.runId none (hb₁.follows ht hf)).raised
      fun _ hu => hu.1) ?_
    rintro _ u ⟨hu, hterm⟩
    exact careful_ask _ trivial hu.1 fun _ v _ _ hv hf' =>
      ⟨hu.follows hv hf', hterm.follows hf'⟩
  refine careful_bind happ ?_
  rintro _ t₂ ⟨hb₂, hterm⟩
  refine careful_bind (careful_duringLease hb₂.1 fun t ht hf => ?_) fun _ t₃ ht₃ => ?_
  · refine careful_finalize fuel _ (hb₂.follows ht hf) ?_ ?_
    · rw [hrun]
      exact hid
    · rw [hrun]
      exact hterm.follows hf
  · exact careful_last _ trivial ht₃

theorem careful_execute {runIds : List String} (offer : ExecutionJobOffer)
    (h : Before scope runIds w) (hid : offer.job.runId ∈ runIds) :
    CarefulServing P validObservation scope circumstances (fun _ => Inv scope)
      (RunnerOfferRuntime.execute P scope fuel offer) w := by
  unfold RunnerOfferRuntime.execute
  refine careful_ask _ trivial h.1 fun lease t₁ _ _ h₁ hf₁ => ?_
  refine careful_ask _ trivial h₁ fun _ t₂ _ _ h₂ hf₂ => ?_
  refine careful_ask _ trivial h₂ fun _ t₃ _ _ h₃ hf₃ => ?_
  have hb₃ := h.follows h₃ (hf₁.trans (hf₂.trans hf₃))
  refine careful_bind ((careful_execution offer.job hb₃).raised fun _ ht => ht.1) ?_
  rintro completion t₄ ⟨hb₄, hrun, hterm⟩
  refine careful_bind (careful_duringLease hb₄.1 fun t ht hf => ?_) fun _ t₅ ht₅ => ?_
  · refine careful_finalize fuel completion (hb₄.follows ht hf) ?_ ?_
    · rw [hrun]
      exact hid
    · rw [hrun]
      exact hterm.follows hf
  · exact careful_last _ trivial ht₅

theorem careful_endingWith (last : ServeOp) (hq : Quiet last) {p : Serving Unit}
    (hp : CarefulServing P validObservation scope circumstances (fun _ => Inv scope) p w) :
    CarefulServing P validObservation scope circumstances (fun _ => Inv scope)
      (endingWith last p) w := by
  unfold endingWith
  refine careful_bind (careful_attempt (Q := fun _ => Inv scope) hp (fun _ _ ht => ht)
    fun _ _ ht => ht) fun outcome t ht => ?_
  have hlast : CarefulServing P validObservation scope circumstances (fun _ => Inv scope)
      (Serving.perform last) t := careful_last last hq ht
  refine careful_bind (careful_attempt (Q := fun _ => Inv scope) hlast (fun _ _ hu => hu)
    fun _ _ hu => hu) fun ended u hu => ?_
  cases outcome with
  | error e => exact hu
  | ok a => cases ended <;> exact hu

theorem careful_serveOpened {runIds : List String} (offer : ExecutionJobOffer)
    (lease : ExecutionJobLease) (opened : Except Thrown Unit) (h : Before scope runIds w)
    (hjob : offer.job.runId ∈ runIds) (hlease : lease.runId ∈ runIds) :
    CarefulServing P validObservation scope circumstances (fun _ => Inv scope)
      (RunnerOfferRuntime.serveOpened P scope fuel offer lease opened) w := by
  unfold RunnerOfferRuntime.serveOpened
  split
  · exact careful_endingWith .closeResources trivial (careful_execute fuel offer h hjob)
  · exact careful_completeTargetError fuel lease _ _ h hlease
  · exact h.1

theorem careful_serve {runIds : List String} (offer : ExecutionJobOffer)
    (lease : ExecutionJobLease) (h : Before scope runIds w) (hjob : offer.job.runId ∈ runIds)
    (hlease : lease.runId ∈ runIds) :
    CarefulServing P validObservation scope circumstances (fun _ => Inv scope)
      (RunnerOfferRuntime.serve P scope fuel offer lease) w := by
  have huses : Uses (Recording scope)
      (AcceptedLeaseLifecycle.duringLease (Serving.perform (.open offer.job))) :=
    uses_bind (uses_perform trivial) fun _ =>
      uses_bind (uses_perform trivial) fun _ => uses_bind (uses_perform trivial) fun _ => trivial
  refine careful_bind (careful_attempt (Q := fun _ => Before scope runIds)
    (careful_recording huses h) (fun _ _ ht => ht) fun _ _ ht => ht) fun opened t ht => ?_
  exact careful_serveOpened fuel offer lease opened ht hjob hlease

/-- The run of an offer has not been completed when it is accepted. -/
theorem before_of_accept {offer : ExecutionJobOffer} {lease : ExecutionJobLease} {t : ServeWorld}
    (hp : Provided circumstances w (.accept offer))
    (ha : ServeWorld.handler P validObservation circumstances (.accept offer) w = (.ok lease, t))
    (ht : Inv scope t) (hf : Follows w t) :
    Before scope [offer.job.runId, lease.runId] t := by
  refine ⟨ht, fun c hc hmem => ?_⟩
  rw [hf.completions] at hc
  have hlease : lease ∈ ((circumstances w.draws).answer (.accept offer)).toOption := by
    have hans : (circumstances w.draws).answer (.accept offer) = .ok lease := congrArg Prod.fst ha
    rw [hans]
    rfl
  obtain ⟨hjob, hnot⟩ := hp c hc
  rcases List.mem_cons.mp hmem with heq | hmem
  · exact hjob heq
  · exact hnot lease hlease (List.mem_singleton.mp hmem)

theorem careful_run (offer : ExecutionJobOffer) (h : Inv scope w) :
    CarefulServing P validObservation scope circumstances (fun _ => Inv scope)
      (RunnerOfferRuntime.run P scope fuel offer) w := by
  unfold RunnerOfferRuntime.run
  refine careful_ask _ trivial h fun (lease : ExecutionJobLease) t₁ hp ha h₁ hf₁ => ?_
  have hb₁ := before_of_accept hp ha h₁ hf₁
  refine careful_ask _ trivial h₁ fun _ t₂ _ _ h₂ hf₂ => ?_
  exact careful_endingWith .dispose trivial (careful_serve fuel offer lease (hb₁.follows h₂ hf₂)
    List.mem_cons_self (List.mem_cons_of_mem _ List.mem_cons_self))

end Offer

section Client

variable (fuel : ℕ)

theorem careful_clientFinalize {runIds : List String} {completion : ExecutionCompletion}
    (h : Before scope runIds w) (hid : completion.runId ∈ runIds)
    (ht : Terminated completion.runId w) :
    CarefulServing P validObservation scope circumstances (fun _ => Inv scope)
      (RunnerClient.finalize fuel completion.runId completion) w := by
  unfold RunnerClient.finalize
  refine careful_bind (careful_drainOwnArtifacts fuel completion.runId h.1) ?_
  rintro _ t₁ ⟨h₁, hf₁, hu₁⟩
  refine careful_bind (careful_drained fuel (h.follows h₁ hf₁) hid (ht.follows hf₁) hu₁) ?_
  rintro _ t₂ ⟨h₂, hr₂⟩
  exact careful_sendCompletion completion h₂ hr₂

/-- What is known after an execution: the run is completed in its trace, and nowhere else when the
executor did not finalize it. -/
def Executed (scope : ServeScope) (finalizes : Bool) (runId : String) (c : ExecutionCompletion)
    (w : ServeWorld) : Prop :=
  Inv scope w ∧ (finalizes = false → Before scope [runId] w ∧ c.runId = runId ∧ Terminated runId w)

theorem Executed.follows {finalizes : Bool} {runId : String} {c : ExecutionCompletion}
    {t : ServeWorld} (h : Executed scope finalizes runId c w) (ht : Inv scope t)
    (hf : Follows w t) : Executed scope finalizes runId c t := by
  refine ⟨ht, fun hfin => ?_⟩
  obtain ⟨hb, hrun, hterm⟩ := h.2 hfin
  exact ⟨hb.follows ht hf, hrun, hterm.follows hf⟩

theorem careful_completeExecution (finalizes : Bool) (offer : ExecutionJobOffer)
    {completion : ExecutionCompletion} (h : Before scope [offer.job.runId] w)
    (hrun : completion.runId = offer.job.runId) (ht : Terminated offer.job.runId w) :
    CarefulServing P validObservation scope circumstances
      (Executed scope finalizes offer.job.runId)
      (RunnerClient.completeExecution fuel finalizes offer completion) w := by
  unfold RunnerClient.completeExecution
  have hfinal : CarefulServing P validObservation scope circumstances
      (fun _ => Executed scope finalizes offer.job.runId completion)
      (onlyIf finalizes (AcceptedLeaseLifecycle.duringLease
        (RunnerClient.finalize fuel offer.job.runId completion))) w := by
    unfold onlyIf
    split
    · next hfin =>
      have hne : finalizes ≠ false := by
        rw [hfin]
        exact nofun
      refine Careful.mono (P := fun _ => Inv scope) (fun _ t hinv => ⟨hinv, fun hf =>
        absurd hf hne⟩) (careful_duringLease h.1 fun t hinv hf => ?_)
      · rw [← hrun]
        refine careful_clientFinalize fuel (h.follows hinv hf) ?_ ?_
        · rw [hrun]
          exact List.mem_cons_self
        · rw [hrun]
          exact ht.follows hf
    · exact ⟨h.1, fun _ => ⟨h, hrun, ht⟩⟩
  refine careful_bind hfinal fun _ t hexec => ?_
  exact careful_ask _ trivial hexec.1 fun _ u _ _ hu hf => hexec.follows hu hf

theorem careful_clientExecute (finalizes : Bool) (offer : ExecutionJobOffer)
    (h : Before scope [offer.job.runId] w) :
    CarefulServing P validObservation scope circumstances
      (Executed scope finalizes offer.job.runId)
      (RunnerClient.execute P scope fuel finalizes offer) w := by
  unfold RunnerClient.execute
  refine careful_ask _ trivial h.1 fun _ t₁ _ _ h₁ hf₁ => ?_
  refine careful_bind (careful_attempt (Q := fun r t => Inv scope t ∧ ∀ c, r = .ok c →
      Before scope [offer.job.runId] t ∧ c.runId = offer.job.runId ∧
        Terminated offer.job.runId t)
    (careful_execution offer.job (h.follows h₁ hf₁)) (fun c t ht => ⟨ht.1.1, ?_⟩)
    fun e t ht => ⟨ht.1, nofun⟩) fun r t hr => ?_
  · rintro _ ⟨⟩
    exact ht
  · cases r with
    | ok completion =>
      obtain ⟨hb, hrun, hterm⟩ := hr.2 completion rfl
      exact careful_completeExecution fuel finalizes offer hb hrun hterm
    | error e =>
      have hlast : CarefulServing P validObservation scope circumstances (fun _ => Inv scope)
          (Serving.perform (.finish none)) t := careful_last (.finish none) trivial hr.1
      exact careful_bind (careful_attempt (Q := fun _ => Inv scope) hlast (fun _ _ hu => hu)
        fun _ _ hu => hu) fun _ u hu => hu

theorem careful_disposing {Q : α → ServeWorld → Prop} {p : Serving α}
    (hp : CarefulServing P validObservation scope circumstances Q p w) :
    CarefulServing P validObservation scope circumstances Q (disposing p) w := by
  unfold disposing
  refine careful_bind (careful_attempt (Q := Program.AfterAttempt Q (Inv scope)) hp
    (fun _ _ ht => ht) fun _ _ ht => ht) fun r t hr => ?_
  cases r with
  | ok a => exact hr
  | error e => exact careful_ask _ trivial hr fun _ u _ _ hu _ => hu

theorem careful_serveNextOffer (finalizes : Bool) (offer : ExecutionJobOffer)
    (h : Inv scope w) :
    CarefulServing P validObservation scope circumstances (fun _ => Inv scope)
      (RunnerClient.serveNextOffer P scope fuel finalizes offer) w := by
  unfold RunnerClient.serveNextOffer
  refine careful_ask _ trivial h fun (accepted : ExecutionJobLease) t₁ hp ha h₁ hf₁ => ?_
  refine careful_ask _ trivial h₁ fun _ t₂ _ _ h₂ hf₂ => ?_
  have hb₁ := before_of_accept hp ha h₁ hf₁
  have hb₂ : Before scope [offer.job.runId] t₂ := by
    refine ⟨h₂, fun c hc hmem => (hb₁.follows h₂ hf₂).2 c hc ?_⟩
    exact List.mem_cons.mpr (.inl (List.mem_singleton.mp hmem))
  refine careful_bind (careful_disposing (careful_clientExecute fuel finalizes offer hb₂)) ?_
  rintro completion t₃ hexec₃
  refine careful_ask _ trivial hexec₃.1 fun (lease : ExecutionJobLease) t₄ _ _ h₄ hf₄ => ?_
  refine careful_ask _ trivial h₄ fun _ t₅ _ _ h₅ hf₅ => ?_
  have hexec₅ := (hexec₃.follows h₄ hf₄).follows h₅ hf₅
  cases finalizes with
  | true => exact h₅
  | false =>
    obtain ⟨hb₅, hrun, hterm₅⟩ := hexec₅.2 rfl
    refine careful_bind (careful_drainArtifacts fuel lease offer.job.runId h₅) ?_
    rintro _ t₆ ⟨h₆, hf₆, hu₆⟩
    refine careful_bind (careful_drained fuel (hb₅.follows h₆ hf₆) List.mem_cons_self
      (hterm₅.follows hf₆) hu₆) ?_
    rintro _ t₇ ⟨h₇, hr₇⟩
    refine careful_complete lease completion h₇ ?_
    rw [hrun]
    exact hr₇

theorem careful_replayArtifacts (runId : String) (artifacts : List ArtifactUploadManifest)
    (h : Inv scope w) :
    CarefulReplaying P validObservation scope circumstances (fun _ => Inv scope)
      (replayArtifacts fuel runId artifacts) w := by
  unfold replayArtifacts
  split
  · exact h
  · refine careful_replay h trivial fun (lease : Option ExecutionJobLease) t _ _ ht _ => ?_
    cases lease with
    | none => exact ht
    | some lease =>
      exact careful_bind (careful_drainArtifactPump ht).replayed fun _ u hu => hu.1

theorem careful_replayRuns (runIds : List String) (h : Inv scope w) :
    CarefulReplaying P validObservation scope circumstances (fun _ => Inv scope)
      (replayRuns fuel runIds) w := by
  induction runIds generalizing w with
  | nil => exact h
  | cons runId runIds ih =>
    unfold replayRuns replayRun
    refine careful_bind (P := fun _ => Inv scope) ?_ fun _ t ht => ih ht
    refine careful_replay h trivial fun _ t₁ _ _ h₁ _ => ?_
    refine careful_replay h₁ trivial
      fun (artifacts : List ArtifactUploadManifest) t₂ _ _ h₂ _ => ?_
    refine careful_bind (careful_replayArtifacts fuel runId artifacts h₂) fun _ t₃ h₃ => ?_
    refine careful_replay h₃ trivial fun (limit : SpoolBatchLimit) t₄ _ _ h₄ _ => ?_
    have hreached : Reached runId 1 t₄ := fun event he _ => h₄.positive event he
    exact Careful.mono (fun _ u hu => hu.1) (careful_drainPump h₄ hreached)

theorem careful_clientReplay (runId : String) (h : Inv scope w) :
    CarefulServing P validObservation scope circumstances (fun _ => Inv scope)
      (RunnerClient.replay fuel runId) w := by
  unfold RunnerClient.replay
  refine careful_ask _ trivial h fun (lease : Option ExecutionJobLease) t _ _ ht _ => ?_
  cases lease with
  | some lease =>
    refine careful_bind (careful_drainArtifacts fuel lease runId ht) fun _ u hu => ?_
    exact Careful.mono (fun _ v hv => hv.1) (careful_drainTrace fuel runId hu.1)
  | none =>
    refine careful_ask _ trivial ht
      fun (artifacts : List ArtifactUploadManifest) u _ _ hu _ => ?_
    split
    · exact Careful.mono (fun _ v hv => hv.1) (careful_drainTrace fuel runId hu)
    · exact hu

end Client

theorem careful_request (request : ServeRequest) (h : Inv scope w) :
    CarefulServing P validObservation scope circumstances (fun _ => Inv scope)
      (request.body P scope) w := by
  cases request with
  | offer fuel offered => exact careful_run fuel offered h
  | nextOffer fuel finalizes offered => exact careful_serveNextOffer fuel finalizes offered h
  | replayPendingRuns fuel =>
    refine careful_bind (P := fun _ => Inv scope) (CarefulReplaying.served ?_) fun _ t ht => ht
    refine careful_replay h trivial fun (runIds : List String) t _ _ ht _ => ?_
    exact careful_bind (careful_replayRuns fuel runIds ht) fun _ u hu => hu
  | replay fuel runId => exact careful_clientReplay fuel runId h

theorem inv_initial : Inv scope .initial where
  traced := nofun
  positive := nofun
  recorder _ := le_rfl
  spooled := nofun
  progress := nofun
  tenant _ := rfl

end Compositions

/-- As long as what a drain asks for is provided, every completion is sent after the evidence of its
run, and as its only one. -/
theorem completion_after_evidence (P : Platform) (validObservation : JsValue → Bool)
    (scope : ServeScope) (circumstances : ℕ → ServeCircumstances) (requests : List ServeRequest)
    (h : AlongAll (ServeWorld.handler P validObservation circumstances)
      (ServeRequest.body P scope) (ServeWorld.Provided circumstances) .initial requests) :
    AlongAll (ServeWorld.handler P validObservation circumstances) (ServeRequest.body P scope)
      ServeWorld.EvidenceFirst .initial requests :=
  alongAll_of_careful (I := ServeWorld.Inv scope) (fun request _ hw => careful_request request hw)
    inv_initial h

/-! ## A session that acknowledges, and one that does not -/

section Decide

open ServeWorld

instance decidableEvidenceFirst (w : ServeWorld) : (op : ServeOp) → Decidable (EvidenceFirst w op)
  | .complete _ _ => inferInstanceAs (Decidable (_ ∧ _))
  | .upload _ | .accept _ | .saveLease _ | .loadLease _ | .currentLease | .assertLeaseActive
  | .open _ | .newRecorder | .append .. | .observe _ | .captureError _ | .dependency _ | .finish _
  | .closeResources | .dispose => isTrue trivial

instance decidableNames (artifactId runId : String) (r : Except Thrown ArtifactUploadAck) :
    Decidable (Names artifactId runId r) :=
  inferInstanceAs (Decidable (∀ ack ∈ r.toOption, ack.artifactId = artifactId ∧ ack.runId = runId))

instance decidableProvided (circumstances : ℕ → ServeCircumstances) (w : ServeWorld) :
    (op : ServeOp) → Decidable (Provided circumstances w op)
  | .accept offer => inferInstanceAs (Decidable (∀ c ∈ w.completions, c.runId ≠ offer.job.runId ∧
      ∀ lease ∈ ((circumstances w.draws).answer (.accept offer)).toOption, c.runId ≠ lease.runId))
  | .upload (.pending _ _ limit) => inferInstanceAs (Decidable (0 < limit.maximumEvents))
  | .upload (.artifact (.pendingArtifactChunks runId artifactId missingRanges)) =>
    inferInstanceAs (Decidable (SqliteRunnerSpool.pendingArtifactChunks runId artifactId
      missingRanges w.artifacts ≠ []))
  | .upload (.artifact (.registerArtifactManifest _)) => decidableNames _ _ _
  | .upload (.artifact (.uploadArtifactChunk _)) => decidableNames _ _ _
  | .upload (.artifact (.saveArtifactManifest _)) | .upload (.artifact (.saveArtifactChunk _))
  | .upload (.artifact (.pendingArtifactManifests _))
  | .upload (.artifact (.artifactUploadProgress ..))
  | .upload (.artifact (.acknowledgeArtifactProgress _)) | .upload .throwIfAborted
  | .upload (.acknowledge ..) | .upload .pendingRunIds | .upload (.loadLeaseForRun _)
  | .upload .batchLimit | .upload .generateBatchId | .upload (.submit _) | .saveLease _
  | .loadLease _ | .currentLease | .assertLeaseActive | .open _ | .newRecorder | .append ..
  | .observe _ | .captureError _ | .dependency _ | .finish _ | .closeResources | .dispose
  | .complete .. => isTrue trivial

end Decide

def servedLease : ExecutionJobLease := ⟨"job", "run", "lease", 1, "2026-01-01T00:01:00.000Z"⟩

def servedOffer : ExecutionJobOffer := ⟨"offer", sampleJob "job" "run", [], 60000⟩

/-- A session that answers registrations as given and acknowledges everything else. -/
def answeringServe (registered : ArtifactManifestRegistration → ArtifactUploadAck) :
    (op : ServeOp) → Except Thrown op.Reply
  | .upload (.artifact (.registerArtifactManifest r)) => .ok (registered r)
  | .upload (.artifact (.uploadArtifactChunk u)) =>
    .ok ⟨u.chunk.artifactId, u.chunk.runId, [], true⟩
  | .upload (.submit batch) =>
    .ok ⟨batch.batchId, batch.runId, batch.firstSequenceNumber + batch.events.length⟩
  | .upload .batchLimit => .ok ⟨128, 1048576⟩
  | .upload .generateBatchId => .ok "batch"
  | .accept _ | .currentLease => .ok servedLease
  | .observe _ => .ok ([], [⟨"dom", .json, [123, 125]⟩])
  | .dependency op => answering done (fun _ => .ok ()) (.ok []) [] op
  | .upload .throwIfAborted | .saveLease _ | .assertLeaseActive | .open _ | .newRecorder
  | .append .. | .finish _ | .closeResources | .dispose | .complete .. => .ok ()
  | _ => .error .other

def servedCircumstances (registered : ArtifactManifestRegistration → ArtifactUploadAck) (_ : ℕ) :
    ServeCircumstances where
  answer := answeringServe registered
  fault := .none
  error := .other
  payload := .obj []
  payload_ne := nofun
  limits := ⟨1048576, fun _ => 1, 0⟩
  artifactLimits := ⟨1048576, 0⟩
  now := "2026-01-01T00:00:00.000Z"

/-- Core asks for the one chunk. -/
def asksForChunk (r : ArtifactManifestRegistration) : ArtifactUploadAck :=
  ⟨r.manifest.artifactId, r.manifest.runId, [⟨0, r.manifest.sizeBytes⟩], false⟩

/-- Core asks for nothing and does not acknowledge the artifact. -/
def asksForNothing (r : ArtifactManifestRegistration) : ArtifactUploadAck :=
  ⟨r.manifest.artifactId, r.manifest.runId, [], false⟩

abbrev servedAlong (registered : ArtifactManifestRegistration → ArtifactUploadAck)
    (ok : ServeWorld → ServeOp → Prop) : Prop :=
  AlongAll (ServeWorld.handler samplePlatform (fun _ => true) (servedCircumstances registered))
    (ServeRequest.body samplePlatform ⟨some "tenant", fun _ => "project"⟩) ok .initial
    [.offer 2 servedOffer]

/-- The completion is sent when the artifact and the trace are acknowledged. -/
theorem completion_after_chunk :
    servedAlong asksForChunk ServeWorld.EvidenceFirst ∧
      (serveAll (ServeWorld.handler samplePlatform (fun _ => true)
        (servedCircumstances asksForChunk))
        (ServeRequest.body samplePlatform ⟨some "tenant", fun _ => "project"⟩) .initial
        [.offer 2 servedOffer]).completions.map (·.runId) = ["run"] :=
  ⟨completion_after_evidence samplePlatform (fun _ => true) ⟨some "tenant", fun _ => "project"⟩
    (servedCircumstances asksForChunk) [.offer 2 servedOffer] (by decide +kernel),
    by decide +kernel⟩

/-- The completion is sent although the artifact is not acknowledged. -/
theorem completion_without_artifact :
    ¬ servedAlong asksForNothing ServeWorld.EvidenceFirst := by
  decide +kernel

end Qualigence.Runner
