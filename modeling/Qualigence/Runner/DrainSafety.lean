import Mathlib.Tactic.ByContra
import Qualigence.Runner.Serving

/-! # Drains while an offer is served

What Core has not acknowledged is in the spool, whatever the session answers and whichever operations
fail. A drain that ends has therefore sent everything, as long as for every artifact that is not
acknowledged a chunk that Core misses is spooled.
-/

namespace Qualigence.Runner

open Foundation Protocol Trace Evidence Kernel Program

namespace ServeWorld

/-! ## What is wanted and what it takes -/

/-- The run is completed in its trace, and Core has acknowledged its events and artifacts. -/
def Acknowledged (runId : String) (w : ServeWorld) : Prop :=
  (∃ event ∈ w.recorded, event.runId = runId ∧ event.stage = "run_completed") ∧
    (∀ event ∈ w.unacknowledged, event.runId ≠ runId) ∧
    ∀ m ∈ w.unacknowledgedArtifacts, m.runId ≠ runId

instance (runId : String) (w : ServeWorld) : Decidable (w.Acknowledged runId) :=
  inferInstanceAs (Decidable (_ ∧ _))

/-- A completion is sent after the evidence of its run, and as the only one. -/
def EvidenceFirst (w : ServeWorld) : ServeOp → Prop
  | .complete _ completion =>
    w.Acknowledged completion.runId ∧ ∀ c ∈ w.completions, c.runId ≠ completion.runId
  | _ => True

/-- An answer about an artifact names it. -/
def Names (artifactId runId : String) (r : Except Thrown ArtifactUploadAck) : Prop :=
  ∀ ack ∈ r.toOption, ack.artifactId = artifactId ∧ ack.runId = runId

/-- A run that is offered has not been completed, an answer about an artifact names it, batches may
have events, and where an artifact is not acknowledged, one of the chunks that Core misses is
spooled. -/
def Provided (circumstances : ℕ → ServeCircumstances) (w : ServeWorld) : ServeOp → Prop
  | .accept offer =>
    ∀ c ∈ w.completions, c.runId ≠ offer.job.runId ∧
      ∀ lease ∈ ((circumstances w.draws).answer (.accept offer)).toOption, c.runId ≠ lease.runId
  | .upload (.pending _ _ limit) => 0 < limit.maximumEvents
  | .upload (.artifact (.pendingArtifactChunks runId artifactId missingRanges)) =>
    SqliteRunnerSpool.pendingArtifactChunks runId artifactId missingRanges w.artifacts ≠ []
  | .upload (.artifact (.registerArtifactManifest registration)) =>
    Names registration.manifest.artifactId registration.manifest.runId
      ((circumstances w.draws).answer
        (.upload (.artifact (.registerArtifactManifest registration))))
  | .upload (.artifact (.uploadArtifactChunk upload)) =>
    Names upload.chunk.artifactId upload.chunk.runId
      ((circumstances w.draws).answer (.upload (.artifact (.uploadArtifactChunk upload))))
  | _ => True

/-! ## The invariant -/

/-- What Core has not acknowledged is in the spool. -/
structure Inv (scope : ServeScope) (w : ServeWorld) : Prop where
  traced : ∀ event ∈ w.unacknowledged, ∃ r ∈ w.trace.events.rows, r.key = eventKey event
  positive : ∀ event ∈ w.unacknowledged, 1 ≤ event.sequenceNumber
  recorder : ∀ runId, 1 ≤ w.recorder runId
  spooled : ∀ m ∈ w.unacknowledgedArtifacts, ∃ r ∈ w.artifacts.manifests.rows, r.manifest = m
  progress : ∀ artifactId progress, w.artifacts.progress artifactId = some progress →
    progress.acknowledged = false
  tenant : scope.tenantId = none → w.unacknowledgedArtifacts = []

/-- Nothing was recorded, spooled or completed since. -/
structure Follows (w w' : ServeWorld) : Prop where
  completions : w'.completions = w.completions
  recorded : w'.recorded = w.recorded
  events : ∀ event ∈ w'.unacknowledged, event ∈ w.unacknowledged
  artifacts : ∀ m ∈ w'.unacknowledgedArtifacts, m ∈ w.unacknowledgedArtifacts

theorem Follows.refl (w : ServeWorld) : Follows w w := ⟨rfl, rfl, fun _ h => h, fun _ h => h⟩

theorem Follows.trans {w₁ w₂ w₃ : ServeWorld} (h : Follows w₁ w₂) (h' : Follows w₂ w₃) :
    Follows w₁ w₃ where
  completions := h'.completions.trans h.completions
  recorded := h'.recorded.trans h.recorded
  events event he := h.events event (h'.events event he)
  artifacts m hm := h.artifacts m (h'.artifacts m hm)

/-- An operation of a pump that keeps the invariant: what it takes out of the spool is
acknowledged. -/
def Safe (w : ServeWorld) : ReplayOp → Prop
  | .acknowledge runId next =>
    ∀ event ∈ w.unacknowledged, ¬ (event.runId = runId ∧ event.sequenceNumber < next)
  | .artifact (.acknowledgeArtifactProgress progress) =>
    progress.acknowledged = true → ∀ m ∈ w.unacknowledgedArtifacts,
      ¬ (m.artifactId = progress.artifactId ∧ m.runId = progress.runId)
  | .artifact (.saveArtifactManifest _) => False
  | _ => True

variable {scope : ServeScope} {w : ServeWorld}

/-- The number of draws plays no role. -/
theorem Inv.draws (h : Inv scope w) (n : ℕ) : Inv scope { w with draws := n } :=
  ⟨h.traced, h.positive, h.recorder, h.spooled, h.progress, h.tenant⟩

theorem Inv.acknowledge (h : Inv scope w) {runId : String} {next : ℕ}
    (hs : Safe w (.acknowledge runId next)) :
    Inv scope { w with trace := SqliteRunnerSpool.acknowledge runId next w.trace } where
  traced event he := by
    obtain ⟨r, hr, hk⟩ := h.traced event he
    refine ⟨r, List.mem_filter.mpr ⟨hr, ?_⟩, hk⟩
    obtain ⟨hrun, hseq⟩ := Prod.mk.inj hk
    unfold SqliteRunnerSpool.isAcknowledged
    rw [hrun, hseq]
    simpa using not_and_or.mp (hs event he)
  positive := h.positive
  recorder := h.recorder
  spooled := h.spooled
  progress := h.progress
  tenant := h.tenant

theorem Inv.saveArtifactChunk (h : Inv scope w) (P : Platform) (limits : ArtifactSpoolLimits)
    (chunk : ArtifactUploadChunk) :
    Inv scope { w with
      artifacts := (SqliteRunnerSpool.saveArtifactChunk P limits chunk w.artifacts).2 } := by
  have hsame : (SqliteRunnerSpool.saveArtifactChunk P limits chunk w.artifacts).2.manifests =
      w.artifacts.manifests ∧
      (SqliteRunnerSpool.saveArtifactChunk P limits chunk w.artifacts).2.progress =
        w.artifacts.progress := by
    unfold SqliteRunnerSpool.saveArtifactChunk
    repeat' split
    all_goals exact ⟨rfl, rfl⟩
  exact ⟨h.traced, h.positive, h.recorder, fun m hm => hsame.1 ▸ h.spooled m hm,
    fun id p hp => h.progress id p (hsame.2 ▸ hp), h.tenant⟩

/-- A new row or a row that is there already. -/
theorem saved_of_saveArtifactManifest {manifest : ArtifactUploadManifest} {now : Timestamp}
    {db db' : ArtifactSpoolDb} {r : Except ArtifactSpoolError Unit}
    (h : SqliteRunnerSpool.saveArtifactManifest manifest now db = (r, db')) :
    db'.progress = db.progress ∧ (∀ row ∈ db.manifests.rows, row ∈ db'.manifests.rows) ∧
      (r = .ok () → ∃ row ∈ db'.manifests.rows, row.manifest = manifest) := by
  unfold SqliteRunnerSpool.saveArtifactManifest at h
  split at h
  · next existing hg =>
    split at h
    · next he =>
      cases h
      exact ⟨rfl, fun _ hr => hr, fun _ => ⟨existing, Table.mem_of_get hg, he⟩⟩
    · cases h
      exact ⟨rfl, fun _ hr => hr, nofun⟩
  · split at h
    · next manifests hins =>
      cases h
      have hrows := Table.rows_of_insert hins
      refine ⟨rfl, fun row hr => ?_, fun _ => ⟨⟨manifest, now⟩, ?_, rfl⟩⟩
      · rw [hrows]
        exact List.mem_append_left _ hr
      · rw [hrows]
        exact List.mem_append_right _ List.mem_cons_self
    · cases h
      exact ⟨rfl, fun _ hr => hr, nofun⟩

theorem Inv.acknowledgeArtifactProgress (h : Inv scope w) {progress : ArtifactUploadAck}
    (hs : Safe w (.artifact (.acknowledgeArtifactProgress progress))) :
    Inv scope { w with
      artifacts := (SqliteRunnerSpool.acknowledgeArtifactProgress progress w.artifacts).2 } := by
  unfold SqliteRunnerSpool.acknowledgeArtifactProgress
  dsimp only
  split
  · next hack =>
    refine ⟨h.traced, h.positive, h.recorder, fun m hm => ?_, fun id p hp => ?_, h.tenant⟩
    · obtain ⟨r, hr, rfl⟩ := h.spooled m hm
      refine ⟨r, List.mem_filter.mpr ⟨hr, ?_⟩, rfl⟩
      simpa using not_and_or.mp (hs hack r.manifest hm)
    · dsimp only at hp
      rw [Function.update_apply] at hp
      split at hp
      · exact h.progress _ p (Option.filter_eq_some_iff.mp hp).1
      · exact h.progress _ p hp
  split
  · exact h
  · next hack _ =>
    refine ⟨h.traced, h.positive, h.recorder, h.spooled, fun id p hp => ?_, h.tenant⟩
    dsimp only at hp
    rw [Function.update_apply] at hp
    split at hp
    · cases hp
      simpa using hack
    · exact h.progress _ p hp

/-! ## Operations of a pump -/

/-- Whether or not an operation of the spool fails. -/
theorem spooling_snd {α : Type} {Q : ServeWorld → Prop} {e : ServeCircumstances}
    {r : ServeWorld.Outcome α} (h : Q w) (h' : Q r.2) : Q (spooling e w r).2 := by
  unfold spooling
  split
  · exact h'
  · exact h
  · exact h'

theorem spooling_ok {α : Type} {e : ServeCircumstances} {r : ServeWorld.Outcome α} {a : α}
    (h : (spooling e w r).1 = .ok a) : spooling e w r = r ∧ r.1 = .ok a := by
  unfold spooling at h ⊢
  split at h
  · exact ⟨rfl, h⟩
  · cases h
  · cases h

theorem Inv.afterArtifactAck (h : Inv scope w) (ack : ArtifactUploadAck) :
    Inv scope (w.afterArtifactAck ack) ∧ Follows w (w.afterArtifactAck ack) := by
  unfold ServeWorld.afterArtifactAck
  split
  · refine ⟨⟨h.traced, h.positive, h.recorder, fun m hm => h.spooled m (List.mem_of_mem_filter hm),
      h.progress, fun ht => ?_⟩, rfl, rfl, fun _ he => he, fun m hm => List.mem_of_mem_filter hm⟩
    rw [h.tenant ht]
    rfl
  · exact ⟨h, Follows.refl w⟩

theorem Inv.artifactAnswer (h : Inv scope w) (r : Except Thrown ArtifactUploadAck) :
    Inv scope (w.artifactAnswer r).2 ∧ Follows w (w.artifactAnswer r).2 := by
  cases r with
  | ok ack => exact h.afterArtifactAck ack
  | error e => exact ⟨h, Follows.refl w⟩

theorem Inv.submit (h : Inv scope w) (batch : ExecutionEventBatch)
    (r : Except Thrown ExecutionEventAck) :
    Inv scope (w.submit batch r).2 ∧ Follows w (w.submit batch r).2 := by
  cases r with
  | ok ack =>
    exact ⟨⟨fun e he => h.traced e (List.mem_of_mem_filter he),
      fun e he => h.positive e (List.mem_of_mem_filter he), h.recorder, h.spooled, h.progress,
      h.tenant⟩, rfl, rfl, fun e he => List.mem_of_mem_filter he, fun _ hm => hm⟩
  | error e => exact ⟨h, Follows.refl w⟩

/-- A safe operation of a pump keeps the invariant and adds nothing. -/
theorem Inv.upload (h : Inv scope w) (P : Platform) (e : ServeCircumstances) (op : ReplayOp)
    (hs : Safe w op) :
    Inv scope (ServeWorld.upload P e op w).2 ∧ Follows w (ServeWorld.upload P e op w).2 := by
  have hsame : Inv scope w ∧ Follows w w := ⟨h, Follows.refl w⟩
  have hspool : ∀ {α : Type} (r : ServeWorld.Outcome α), Inv scope r.2 ∧ Follows w r.2 →
      Inv scope (spooling e w r).2 ∧ Follows w (spooling e w r).2 := fun r hr =>
    spooling_snd (Q := fun t => Inv scope t ∧ Follows w t) hsame hr
  cases op with
  | artifact op =>
    cases op with
    | saveArtifactManifest manifest => exact hs.elim
    | saveArtifactChunk chunk =>
      exact hspool _ ⟨h.saveArtifactChunk P _ chunk, rfl, rfl, fun _ he => he, fun _ hm => hm⟩
    | pendingArtifactManifests runId => exact hspool _ hsame
    | pendingArtifactChunks runId artifactId missingRanges => exact hspool _ hsame
    | artifactUploadProgress runId artifactId => exact hspool _ hsame
    | acknowledgeArtifactProgress progress =>
      exact hspool _ ⟨h.acknowledgeArtifactProgress hs, rfl, rfl, fun _ he => he, fun _ hm => hm⟩
    | registerArtifactManifest registration => exact h.artifactAnswer _
    | uploadArtifactChunk upload => exact h.artifactAnswer _
  | acknowledge runId next =>
    exact hspool _ ⟨h.acknowledge hs, rfl, rfl, fun _ he => he, fun _ hm => hm⟩
  | pending runId fromSequence limit => exact hspool _ hsame
  | pendingRunIds => exact hspool _ hsame
  | submit batch => exact h.submit batch _
  | throwIfAborted | loadLeaseForRun _ | batchLimit | generateBatchId => exact hsame

end ServeWorld

/-! ## Pumps -/

section Pumps

open ServeWorld

variable (P : Platform) (validObservation : JsValue → Bool) (scope : ServeScope)
  (circumstances : ℕ → ServeCircumstances)

/-- The operations of a pump while an offer is served. -/
def replayHandler : Handler replaySignature UploadFailure ServeWorld :=
  pull ServeOp.upload (fun _ r => r) (fun _ => UploadFailure.lost)
    (ServeWorld.handler P validObservation circumstances)

/-- The operations of an upload of artifacts while an offer is served. -/
def artifactHandler : Handler artifactSignature UploadFailure ServeWorld :=
  pull ReplayOp.artifact (fun _ r => r) id (replayHandler P validObservation circumstances)

/-- A program of the Runner that keeps the invariant and sends completions after their evidence. -/
abbrev CarefulServing {α : Type} (Q : α → ServeWorld → Prop) (p : Serving α) (w : ServeWorld) :
    Prop :=
  Careful (ServeWorld.handler P validObservation circumstances) (Provided circumstances)
    EvidenceFirst (Inv scope) Q p w

abbrev CarefulReplaying {α : Type} (Q : α → ServeWorld → Prop) (p : Replaying α)
    (w : ServeWorld) : Prop :=
  Careful (replayHandler P validObservation circumstances)
    (fun w op => Provided circumstances w (.upload op)) (fun w op => EvidenceFirst w (.upload op))
    (Inv scope) Q p w

abbrev CarefulUploading {α : Type} (Q : α → ServeWorld → Prop) (p : Uploading α)
    (w : ServeWorld) : Prop :=
  Careful (artifactHandler P validObservation circumstances)
    (fun w op => Provided circumstances w (.upload (.artifact op)))
    (fun w op => EvidenceFirst w (.upload (.artifact op))) (Inv scope) Q p w

variable {P validObservation scope circumstances} {w : ServeWorld} {α : Type}

theorem CarefulReplaying.served {Q : α → ServeWorld → Prop} {p : Replaying α}
    (h : CarefulReplaying P validObservation scope circumstances Q p w) :
    CarefulServing P validObservation scope circumstances Q p.served w := Careful.relabel h

theorem CarefulUploading.replayed {Q : α → ServeWorld → Prop} {p : Uploading α}
    (h : CarefulUploading P validObservation scope circumstances Q p w) :
    CarefulReplaying P validObservation scope circumstances Q p.replayed w := Careful.relabel h

theorem replayHandler_ok {op : ReplayOp} {a : op.Reply}
    (h : (replayHandler P validObservation circumstances op w).1 = .ok a) :
    ServeWorld.handler P validObservation circumstances (.upload op) w =
      (.ok a, (replayHandler P validObservation circumstances op w).2) := by
  obtain ⟨b, hb, rfl⟩ := pull_eq_ok h
  exact hb

theorem artifactHandler_ok {op : ArtifactOp} {a : op.Reply}
    (h : (artifactHandler P validObservation circumstances op w).1 = .ok a) :
    ServeWorld.handler P validObservation circumstances (.upload (.artifact op)) w =
      (.ok a, (artifactHandler P validObservation circumstances op w).2) := by
  obtain ⟨b, hb, rfl⟩ := pull_eq_ok h
  have hr : (replayHandler P validObservation circumstances (.artifact op) w).1 = .ok b := by
    rw [hb]
  exact replayHandler_ok hr

/-- What an operation of a pump does to the world. -/
theorem ServeWorld.Inv.handled (h : Inv scope w) (P : Platform) (validObservation : JsValue → Bool)
    (circumstances : ℕ → ServeCircumstances) {op : ReplayOp} (hs : Safe w op) :
    Inv scope (ServeWorld.handler P validObservation circumstances (.upload op) w).2 ∧
      Follows w (ServeWorld.handler P validObservation circumstances (.upload op) w).2 := by
  obtain ⟨hinv, hf⟩ := (h.draws (w.draws + 1)).upload P (circumstances w.draws) op hs
  exact ⟨hinv, hf.completions, hf.recorded, hf.events, hf.artifacts⟩

/-- A safe operation of a pump, and what follows an answer to it. -/
theorem careful_replay {op : ReplayOp} {f : op.Reply → Replaying α} {Q : α → ServeWorld → Prop}
    (h : Inv scope w) (hs : Safe w op)
    (hf : ∀ a t, Provided circumstances w (.upload op) →
      ServeWorld.handler P validObservation circumstances (.upload op) w = (.ok a, t) →
      Inv scope t → Follows w t → CarefulReplaying P validObservation scope circumstances Q (f a) t) :
    CarefulReplaying P validObservation scope circumstances Q
      ((Replaying.perform op).bind f) w := by
  obtain ⟨hinv, hfollows⟩ := h.handled P validObservation circumstances hs
  exact careful_step (fun _ => trivial)
    (fun a hc hr => hf a _ hc (replayHandler_ok hr) hinv hfollows) fun _ => hinv

theorem careful_upload {op : ArtifactOp} {f : op.Reply → Uploading α} {Q : α → ServeWorld → Prop}
    (h : Inv scope w) (hs : Safe w (.artifact op))
    (hf : ∀ a t, Provided circumstances w (.upload (.artifact op)) →
      ServeWorld.handler P validObservation circumstances (.upload (.artifact op)) w = (.ok a, t) →
      Inv scope t → Follows w t → CarefulUploading P validObservation scope circumstances Q (f a) t) :
    CarefulUploading P validObservation scope circumstances Q
      ((Uploading.perform op).bind f) w := by
  obtain ⟨hinv, hfollows⟩ := h.handled P validObservation circumstances hs
  exact careful_step (fun _ => trivial)
    (fun a hc hr => hf a _ hc (artifactHandler_ok hr) hinv hfollows) fun _ => hinv

/-! ### The trace -/

/-- What Core acknowledges is acknowledged. -/
theorem submit_ok {batch : ExecutionEventBatch} {ack : ExecutionEventAck} {t : ServeWorld}
    (h : ServeWorld.handler P validObservation circumstances (.upload (.submit batch)) w =
      (.ok ack, t)) :
    ∀ event ∈ t.unacknowledged, ¬ (event.runId = batch.runId ∧
      event.sequenceNumber < ack.nextExpectedSequenceNumber) := by
  change ServeWorld.submit _ batch _ = _ at h
  unfold ServeWorld.submit at h
  split at h
  · cases h
    intro event he
    exact of_decide_eq_true (List.mem_filter.mp he).2
  · cases h

theorem pending_ok {runId : String} {fromSequence : ℕ} {limit : SpoolBatchLimit}
    {events : List TraceEvent} {t : ServeWorld}
    (h : ServeWorld.handler P validObservation circumstances
      (.upload (.pending runId fromSequence limit)) w = (.ok events, t)) :
    events = SqliteRunnerSpool.pending runId fromSequence limit t.trace := by
  obtain ⟨hr, he⟩ := spooling_ok (congrArg Prod.fst h)
  change spooling _ _ _ = _ at h
  rw [hr] at h
  cases h
  rfl

/-- Nothing is pending only if no row is left. -/
theorem lt_of_pending_eq_nil {runId : String} {fromSequence : ℕ} {limit : SpoolBatchLimit}
    {db : SpoolDb} (hlimit : 0 < limit.maximumEvents)
    (h : SqliteRunnerSpool.pending runId fromSequence limit db = []) {r : SpoolRow}
    (hr : r ∈ db.events.rows) (hrun : r.event.runId = runId) :
    r.event.sequenceNumber < fromSequence := by
  by_contra hge
  unfold SqliteRunnerSpool.pending at h
  dsimp only at h
  have hmem : r ∈ (db.events.rows.filter fun r =>
      r.event.runId = runId ∧ fromSequence ≤ r.event.sequenceNumber).insertionSort
        fun a b => a.event.sequenceNumber ≤ b.event.sequenceNumber :=
    (List.mem_insertionSort _).mpr (List.mem_filter.mpr
      ⟨hr, decide_eq_true ⟨hrun, not_lt.mp hge⟩⟩)
  revert hmem
  cases hrows : (db.events.rows.filter fun r =>
      r.event.runId = runId ∧ fromSequence ≤ r.event.sequenceNumber).insertionSort
        fun a b => a.event.sequenceNumber ≤ b.event.sequenceNumber with
  | nil => exact fun hmem => absurd hmem List.not_mem_nil
  | cons row rows =>
    rw [hrows] at h
    unfold SqliteRunnerSpool.window at h
    rw [if_neg (not_le.mpr hlimit), if_neg fun hc => absurd hc.1 (lt_irrefl 0)] at h
    cases h

/-- The events of a run from a number on are all that Core has not acknowledged. -/
def Reached (runId : String) (cursor : ℕ) (w : ServeWorld) : Prop :=
  ∀ event ∈ w.unacknowledged, event.runId = runId → cursor ≤ event.sequenceNumber

theorem Reached.follows {runId : String} {cursor : ℕ} {t : ServeWorld}
    (h : Reached runId cursor w) (hf : Follows w t) : Reached runId cursor t :=
  fun event he => h event (hf.events event he)

/-- Core has acknowledged every event of a run. -/
def Drained (runId : String) (w : ServeWorld) : Prop :=
  ∀ event ∈ w.unacknowledged, event.runId ≠ runId

/-- When nothing is pending, every event is acknowledged. -/
theorem drained_of_pending {runId : String} {cursor : ℕ} {limit : SpoolBatchLimit}
    (h : Inv scope w) (hr : Reached runId cursor w) (hlimit : 0 < limit.maximumEvents)
    (hp : SqliteRunnerSpool.pending runId cursor limit w.trace = []) : Drained runId w := by
  intro event he hrun
  obtain ⟨r, hrow, hk⟩ := h.traced event he
  obtain ⟨hrun', hseq⟩ := Prod.mk.inj hk
  have hlt := lt_of_pending_eq_nil hlimit hp hrow (hrun'.trans hrun)
  rw [hseq] at hlt
  exact absurd (hr event he hrun) (not_le.mpr hlt)

theorem careful_pumpOnce {runId : String} {limit : SpoolBatchLimit} {cursor : ℕ}
    (h : Inv scope w) (hr : Reached runId cursor w) :
    CarefulReplaying P validObservation scope circumstances
      (fun x t => Inv scope t ∧ Follows w t ∧ Reached runId x.1 t ∧
        (x.2.done = true → Drained runId t))
      (TraceUploadPump.pumpOnce runId limit cursor) w := by
  unfold TraceUploadPump.pumpOnce
  refine careful_replay h trivial fun _ t₁ _ _ h₁ hf₁ => ?_
  refine careful_replay h₁ trivial fun events t₂ hlimit hpend h₂ hf₂ => ?_
  have hr₂ := hr.follows (hf₁.trans hf₂)
  cases events with
  | nil =>
    refine ⟨h₂, hf₁.trans hf₂, hr₂, fun _ => ?_⟩
    exact drained_of_pending h₂ hr₂ hlimit (pending_ok hpend).symm
  | cons first events =>
    refine careful_replay h₂ trivial fun batchId t₃ _ _ h₃ hf₃ => ?_
    refine careful_replay h₃ trivial fun _ t₄ _ _ h₄ hf₄ => ?_
    refine careful_replay h₄ trivial fun ack t₅ _ hsub h₅ hf₅ => ?_
    refine careful_replay h₅ trivial fun _ t₆ _ _ h₆ hf₆ => ?_
    have hack : Safe t₆ (.acknowledge runId ack.nextExpectedSequenceNumber) :=
      fun event he => submit_ok hsub event (hf₆.events event he)
    refine careful_replay h₆ hack fun _ t₇ _ _ h₇ hf₇ => ?_
    refine careful_replay h₇ trivial fun _ t₈ _ _ h₈ hf₈ => ?_
    refine careful_replay h₈ trivial fun remaining t₉ hlimit' hpend' h₉ hf₉ => ?_
    have hlast := hf₇.trans (hf₈.trans hf₉)
    have hall := hf₁.trans (hf₂.trans (hf₃.trans (hf₄.trans (hf₅.trans (hf₆.trans hlast)))))
    have hr₉ : Reached runId (max cursor ack.nextExpectedSequenceNumber) t₉ := by
      intro event he hrun
      have hge := hr.follows hall event he hrun
      have hnot := hack event (hlast.events event he)
      exact max_le hge (not_lt.mp fun hlt => hnot ⟨hrun, hlt⟩)
    refine ⟨h₉, hall, hr₉, fun hdone => ?_⟩
    have hnil := (pending_ok hpend').symm.trans (List.isEmpty_iff.mp hdone)
    exact drained_of_pending h₉ hr₉ hlimit' hnil

/-- By induction on the fuel: a drain that ends has nothing pending. -/
theorem careful_drainPump {runId : String} {limit : SpoolBatchLimit} {fuel cursor : ℕ}
    (h : Inv scope w) (hr : Reached runId cursor w) :
    CarefulReplaying P validObservation scope circumstances
      (fun _ t => Inv scope t ∧ Follows w t ∧ Drained runId t)
      (TraceUploadPump.drain runId limit fuel cursor) w := by
  induction fuel generalizing w cursor with
  | zero => exact h
  | succ fuel ih =>
    unfold TraceUploadPump.drain
    refine careful_bind (careful_pumpOnce h hr) ?_
    rintro ⟨cursor', result⟩ t ⟨ht, hf, hr', hd⟩
    dsimp only at hr' hd ⊢
    split
    · next hdone => exact ⟨ht, hf, hd hdone⟩
    · refine Careful.mono (fun _ u hu => ?_) (ih ht hr')
      exact ⟨hu.1, hf.trans hu.2.1, hu.2.2⟩

/-! ### Artifacts -/

/-- Core has acknowledged an artifact, if it was ever spooled. -/
def Gone (artifactId runId : String) (w : ServeWorld) : Prop :=
  ∀ m ∈ w.unacknowledgedArtifacts, ¬ (m.artifactId = artifactId ∧ m.runId = runId)

theorem Gone.follows {artifactId runId : String} {t : ServeWorld} (h : Gone artifactId runId w)
    (hf : Follows w t) : Gone artifactId runId t :=
  fun m hm => h m (hf.artifacts m hm)

theorem gone_of_answer {ack : ArtifactUploadAck} {r : Except Thrown ArtifactUploadAck}
    {t : ServeWorld} (h : w.artifactAnswer r = (.ok ack, t)) :
    r = .ok ack ∧ (ack.acknowledged = true → Gone ack.artifactId ack.runId t) := by
  unfold ServeWorld.artifactAnswer at h
  split at h
  · next ack' =>
    cases h
    refine ⟨rfl, fun hack m hm => ?_⟩
    unfold ServeWorld.afterArtifactAck at hm
    rw [if_pos hack] at hm
    exact of_decide_eq_true (List.mem_filter.mp hm).2
  · cases h

/-- An answer about an artifact, when it names it. -/
theorem gone_of_named {artifactId runId : String} {ack : ArtifactUploadAck}
    {r : Except Thrown ArtifactUploadAck} {t : ServeWorld} (hn : Names artifactId runId r)
    (h : w.artifactAnswer r = (.ok ack, t)) :
    (ack.artifactId = artifactId ∧ ack.runId = runId) ∧
      (ack.acknowledged = true → Gone artifactId runId t) := by
  obtain ⟨hr, hgone⟩ := gone_of_answer h
  have hnames := hn ack (by rw [hr]; rfl)
  refine ⟨hnames, fun hack => ?_⟩
  rw [← hnames.1, ← hnames.2]
  exact hgone hack

/-- What a pump that knows of an artifact knows. -/
def Knows (artifactId runId : String) (progress : ArtifactUploadAck) (w : ServeWorld) : Prop :=
  progress.acknowledged = true → Gone artifactId runId w

variable {lease : ExecutionJobLease} {manifest : ArtifactUploadManifest}

theorem careful_registerManifest (h : Inv scope w) :
    CarefulUploading P validObservation scope circumstances
      (fun ack t => Inv scope t ∧ Follows w t ∧ Knows manifest.artifactId manifest.runId ack t)
      (ArtifactUploadPump.registerManifest lease manifest) w := by
  unfold ArtifactUploadPump.registerManifest
  refine careful_upload h trivial fun ack t₁ hnamed hans h₁ hf₁ => ?_
  obtain ⟨⟨hid, hrun⟩, hgone⟩ := gone_of_named hnamed hans
  have hsafe : Safe t₁ (.artifact (.acknowledgeArtifactProgress ack)) := by
    intro hack
    rw [hid, hrun]
    exact hgone hack
  refine careful_upload h₁ hsafe fun _ t₂ _ _ h₂ hf₂ => ?_
  exact ⟨h₂, hf₁.trans hf₂, fun hack => (hgone hack).follows hf₂⟩

/-- By induction on the chunks that are left: only the last answer can acknowledge the artifact. -/
theorem careful_uploadChunks {progress : ArtifactUploadAck} {chunks : List ArtifactUploadChunk}
    (hc : ∀ c ∈ chunks, c.artifactId = manifest.artifactId ∧ c.runId = manifest.runId)
    (h : Inv scope w) (hp : Knows manifest.artifactId manifest.runId progress w) :
    CarefulUploading P validObservation scope circumstances
      (fun ack t => Inv scope t ∧ Follows w t ∧ Knows manifest.artifactId manifest.runId ack t)
      (ArtifactUploadPump.uploadChunks lease progress chunks) w := by
  induction chunks generalizing progress w with
  | nil => exact ⟨h, Follows.refl w, hp⟩
  | cons chunk chunks ih =>
    obtain ⟨hcid, hcrun⟩ := hc chunk List.mem_cons_self
    unfold ArtifactUploadPump.uploadChunks
    refine careful_upload h trivial fun ack t₁ hnamed hans h₁ hf₁ => ?_
    obtain ⟨⟨hid, hrun⟩, hgone⟩ := gone_of_named hnamed hans
    rw [hcid] at hid hgone
    rw [hcrun] at hrun hgone
    have hsafe : Safe t₁ (.artifact (.acknowledgeArtifactProgress ack)) := by
      intro hack
      rw [hid, hrun]
      exact hgone hack
    refine careful_upload h₁ hsafe fun _ t₂ _ _ h₂ hf₂ => ?_
    have hknows : Knows manifest.artifactId manifest.runId ack t₂ :=
      fun hack => (hgone hack).follows hf₂
    split
    · exact ⟨h₂, hf₁.trans hf₂, hknows⟩
    · refine Careful.mono (fun _ u hu => ?_)
        (ih (fun c hcm => hc c (List.mem_cons_of_mem _ hcm)) h₂ hknows)
      exact ⟨hu.1, (hf₁.trans hf₂).trans hu.2.1, hu.2.2⟩

theorem pendingChunks_ok {runId artifactId : String} {missingRanges : List ArtifactByteRange}
    {chunks : List ArtifactUploadChunk} {t : ServeWorld}
    (h : ServeWorld.handler P validObservation circumstances
      (.upload (.artifact (.pendingArtifactChunks runId artifactId missingRanges))) w =
        (.ok chunks, t)) :
    chunks = SqliteRunnerSpool.pendingArtifactChunks runId artifactId missingRanges
      w.artifacts := by
  obtain ⟨hr, -⟩ := spooling_ok (congrArg Prod.fst h)
  change spooling _ _ _ = _ at h
  rw [hr] at h
  cases h
  rfl

theorem mem_pendingChunks {runId artifactId : String} {missingRanges : List ArtifactByteRange}
    {db : ArtifactSpoolDb} {c : ArtifactUploadChunk}
    (h : c ∈ SqliteRunnerSpool.pendingArtifactChunks runId artifactId missingRanges db) :
    c.artifactId = artifactId ∧ c.runId = runId := by
  have hm := List.mem_mergeSort.mp (List.mem_of_mem_filter h)
  exact (of_decide_eq_true (List.mem_filter.mp hm).2).symm

theorem Knows.follows {artifactId runId : String} {progress : ArtifactUploadAck} {t : ServeWorld}
    (h : Knows artifactId runId progress w) (hf : Follows w t) :
    Knows artifactId runId progress t :=
  fun hack => (h hack).follows hf

/-- By induction on the fuel: as chunks are found as long as the artifact is not acknowledged, it is
in the end. -/
theorem careful_uploadMissing {fuel : ℕ} {progress : ArtifactUploadAck} (h : Inv scope w)
    (hp : Knows manifest.artifactId manifest.runId progress w) :
    CarefulUploading P validObservation scope circumstances
      (fun _ t => Inv scope t ∧ Follows w t ∧ Gone manifest.artifactId manifest.runId t)
      (ArtifactUploadPump.uploadMissing lease manifest fuel progress) w := by
  induction fuel generalizing w progress with
  | zero => exact h
  | succ fuel ih =>
    unfold ArtifactUploadPump.uploadMissing
    refine careful_upload h trivial
      fun (chunks : List ArtifactUploadChunk) t₁ hfound hans h₁ hf₁ => ?_
    have hchunks := pendingChunks_ok hans
    split
    · next hempty =>
      rw [hchunks] at hempty
      exact absurd (List.isEmpty_iff.mp hempty) hfound
    · have hmem : ∀ c ∈ chunks,
          c.artifactId = manifest.artifactId ∧ c.runId = manifest.runId := by
        intro c hc
        rw [hchunks] at hc
        exact mem_pendingChunks hc
      refine careful_bind (careful_uploadChunks hmem h₁ (hp.follows hf₁)) ?_
      rintro ack t₂ ⟨h₂, hf₂, hknows⟩
      split
      · next hack => exact ⟨h₂, hf₁.trans hf₂, hknows hack⟩
      · refine Careful.mono (fun _ u hu => ?_) (ih h₂ hknows)
        exact ⟨hu.1, (hf₁.trans hf₂).trans hu.2.1, hu.2.2⟩

theorem progress_ok {runId artifactId : String} {progress : Option ArtifactUploadAck}
    {t : ServeWorld} (h : Inv scope w)
    (hans : ServeWorld.handler P validObservation circumstances
      (.upload (.artifact (.artifactUploadProgress runId artifactId))) w = (.ok progress, t)) :
    ∀ p ∈ progress, p.acknowledged = false := by
  obtain ⟨hr, -⟩ := spooling_ok (congrArg Prod.fst hans)
  change spooling _ _ _ = _ at hans
  rw [hr] at hans
  cases hans
  exact fun p hp => h.progress _ p (Option.filter_eq_some_iff.mp hp).1

theorem careful_initialProgress (h : Inv scope w) :
    CarefulUploading P validObservation scope circumstances
      (fun ack t => Inv scope t ∧ Follows w t ∧ Knows manifest.artifactId manifest.runId ack t)
      (ArtifactUploadPump.initialProgress lease manifest) w := by
  unfold ArtifactUploadPump.initialProgress
  refine careful_upload h trivial fun progress t₁ _ hans h₁ hf₁ => ?_
  have hstored := progress_ok h hans
  cases progress with
  | some progress =>
    refine ⟨h₁, hf₁, fun hack => ?_⟩
    rw [hstored progress rfl] at hack
    cases hack
  | none =>
    refine Careful.mono (fun _ u hu => ?_) (careful_registerManifest h₁)
    exact ⟨hu.1, hf₁.trans hu.2.1, hu.2.2⟩

theorem careful_drainManifest {fuel : ℕ} (h : Inv scope w) :
    CarefulUploading P validObservation scope circumstances
      (fun _ t => Inv scope t ∧ Follows w t ∧ Gone manifest.artifactId manifest.runId t)
      (ArtifactUploadPump.drainManifest lease fuel manifest) w := by
  unfold ArtifactUploadPump.drainManifest
  refine careful_bind (careful_initialProgress h) ?_
  rintro initial t ⟨ht, hf, hknows⟩
  split
  · next hack => exact ⟨ht, hf, hknows hack⟩
  · refine Careful.mono (fun _ u hu => ?_) (careful_uploadMissing ht hknows)
    exact ⟨hu.1, hf.trans hu.2.1, hu.2.2⟩

theorem careful_drainManifests {fuel : ℕ} {manifests : List ArtifactUploadManifest}
    {acknowledged : ℕ} (h : Inv scope w) :
    CarefulUploading P validObservation scope circumstances
      (fun _ t => Inv scope t ∧ Follows w t ∧ ∀ m ∈ manifests, Gone m.artifactId m.runId t)
      (ArtifactUploadPump.drainManifests lease fuel manifests acknowledged) w := by
  induction manifests generalizing w acknowledged with
  | nil => exact ⟨h, Follows.refl w, fun m hm => absurd hm List.not_mem_nil⟩
  | cons manifest manifests ih =>
    unfold ArtifactUploadPump.drainManifests
    refine careful_bind (careful_drainManifest h) ?_
    rintro final t ⟨ht, hf, hgone⟩
    refine Careful.mono (fun _ u hu => ?_) (ih ht)
    refine ⟨hu.1, hf.trans hu.2.1, fun m hm => ?_⟩
    rcases List.mem_cons.mp hm with rfl | hm
    · exact hgone.follows hu.2.1
    · exact hu.2.2 m hm

/-- Core has acknowledged every artifact of a run. -/
def Uploaded (runId : String) (w : ServeWorld) : Prop :=
  ∀ m ∈ w.unacknowledgedArtifacts, m.runId ≠ runId

theorem Uploaded.follows {runId : String} {t : ServeWorld} (h : Uploaded runId w)
    (hf : Follows w t) : Uploaded runId t :=
  fun m hm => h m (hf.artifacts m hm)

theorem pendingManifests_ok {runId : String} {manifests : List ArtifactUploadManifest}
    {t : ServeWorld} (h : ServeWorld.handler P validObservation circumstances
      (.upload (.artifact (.pendingArtifactManifests runId))) w = (.ok manifests, t)) :
    manifests = SqliteRunnerSpool.pendingArtifactManifests runId t.artifacts := by
  obtain ⟨hr, -⟩ := spooling_ok (congrArg Prod.fst h)
  change spooling _ _ _ = _ at h
  rw [hr] at h
  cases h
  rfl

theorem careful_drainArtifactPump {fuel : ℕ} {runId : String} (h : Inv scope w) :
    CarefulUploading P validObservation scope circumstances
      (fun _ t => Inv scope t ∧ Follows w t ∧ Uploaded runId t)
      (ArtifactUploadPump.drain lease fuel runId) w := by
  unfold ArtifactUploadPump.drain
  refine careful_upload h trivial
    fun (manifests : List ArtifactUploadManifest) t₁ _ hans h₁ hf₁ => ?_
  refine careful_bind (careful_drainManifests h₁) ?_
  rintro acknowledged t₂ ⟨h₂, hf₂, hgone⟩
  refine ⟨h₂, hf₁.trans hf₂, fun m hm hrun => ?_⟩
  obtain ⟨r, hr, rfl⟩ := h₁.spooled m (hf₂.artifacts m hm)
  have hmem : r.manifest ∈ manifests := by
    rw [pendingManifests_ok hans]
    refine List.mem_map.mpr ⟨r, List.mem_mergeSort.mpr ?_, rfl⟩
    exact List.mem_filter.mpr ⟨hr, decide_eq_true hrun⟩
  exact hgone _ hmem _ hm ⟨rfl, rfl⟩

end Pumps

end Qualigence.Runner
