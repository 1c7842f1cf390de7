import Qualigence.Runner.ArtifactPump

/-! # What the spool deletes is not missing

A chunk in the spool belongs to an artifact whose manifest is in the spool, or which Core has
verified. A pump acknowledges what Core answered it, and such an answer bounds what is missing from
then on, so that no acknowledgement deletes a chunk that Core reports missing, however captures,
pumps and the calls of others take turns and whatever fails.
-/

namespace Qualigence.Runner

open Foundation Protocol Evidence

/-! ## The operations of the spool -/

namespace SqliteRunnerSpool

variable {P : Platform} {db : ArtifactSpoolDb}

/-- A manifest is stored once, and nothing else changes. -/
theorem saveArtifactManifest_cases (db : ArtifactSpoolDb) (manifest : ArtifactUploadManifest)
    (now : Timestamp) :
    (saveArtifactManifest manifest now db).2 = db ∨
      ∃ manifests, db.manifests.insert ⟨manifest, now⟩ = some manifests ∧
        (saveArtifactManifest manifest now db).2 = { db with manifests } := by
  unfold saveArtifactManifest
  split
  · split <;> exact .inl rfl
  · split
    · next manifests hi => exact .inr ⟨manifests, hi, rfl⟩
    · exact .inl rfl

theorem saveArtifactChunk_cases (db : ArtifactSpoolDb) (limits : ArtifactSpoolLimits)
    (chunk : ArtifactUploadChunk) :
    (saveArtifactChunk P limits chunk db).2 = db ∨
      ∃ chunks, db.chunks.insert chunk = some chunks ∧
        (saveArtifactChunk P limits chunk db).2 = { db with chunks } := by
  unfold saveArtifactChunk
  split
  · exact .inl rfl
  split
  · split <;> exact .inl rfl
  split
  · exact .inl rfl
  split
  · exact .inl rfl
  split
  · next chunks hi => exact .inr ⟨chunks, hi, rfl⟩
  · exact .inl rfl

/-- An acknowledgement leaves everything, or deletes its chunks, and the manifest of an artifact
that is acknowledged. -/
theorem acknowledgeArtifactProgress_cases (db : ArtifactSpoolDb) (progress : ArtifactUploadAck) :
    (acknowledgeArtifactProgress progress db).2 = db ∨
      (acknowledgeArtifactProgress progress db).2.chunks =
          db.chunks.delete (deletesChunk progress db) ∧
        ((acknowledgeArtifactProgress progress db).2.manifests = db.manifests ∨
          progress.acknowledged = true ∧
            (acknowledgeArtifactProgress progress db).2.manifests = db.manifests.delete fun r =>
              r.manifest.artifactId = progress.artifactId ∧ r.manifest.runId = progress.runId) := by
  unfold acknowledgeArtifactProgress
  dsimp only
  split
  · next ha => exact .inr ⟨rfl, .inr ⟨ha, rfl⟩⟩
  split
  · exact .inl rfl
  · exact .inr ⟨rfl, .inl rfl⟩

theorem mem_pendingArtifactManifests {runId : String} {manifest : ArtifactUploadManifest} :
    manifest ∈ pendingArtifactManifests runId db ↔
      ∃ r ∈ db.manifests.rows, r.manifest = manifest ∧ manifest.runId = runId := by
  unfold pendingArtifactManifests
  simp only [List.mem_map, List.mem_mergeSort, List.mem_filter, decide_eq_true_eq]
  constructor
  · rintro ⟨r, ⟨hr, hrun⟩, rfl⟩
    exact ⟨r, hr, rfl, hrun⟩
  · rintro ⟨r, hr, rfl, hrun⟩
    exact ⟨r, ⟨hr, hrun⟩, rfl⟩

theorem mem_pendingArtifactChunks {runId artifactId : String}
    {missingRanges : List ArtifactByteRange} {c : ArtifactUploadChunk} :
    c ∈ pendingArtifactChunks runId artifactId missingRanges db ↔
      c ∈ db.chunks.rows ∧ c.runId = runId ∧ c.artifactId = artifactId ∧
        isMissing missingRanges c.offset := by
  unfold pendingArtifactChunks
  simp only [List.mem_mergeSort, List.mem_filter, decide_eq_true_eq]
  constructor
  · rintro ⟨⟨hc, hrun, hid⟩, hm⟩
    exact ⟨hc, hrun, hid, hm⟩
  · rintro ⟨hc, hrun, hid, hm⟩
    exact ⟨⟨hc, hrun, hid⟩, hm⟩

end SqliteRunnerSpool

theorem isMissing_iff {missingRanges : List ArtifactByteRange} {offset : ℕ} :
    isMissing missingRanges offset = true ↔ ∃ r ∈ missingRanges, r.Covers offset := by
  simp [isMissing, ArtifactByteRange.Covers]

/-! ## The discipline -/

namespace RunnerScope

variable (scope : RunnerScope)

/-- The artifact that an acknowledgement is about. -/
def key (runId artifactId : String) : ArtifactKey :=
  ⟨scope.tenantId, scope.projectOf runId, runId, artifactId⟩

/-- The artifact is one of the Runner. -/
def Has (k : ArtifactKey) : Prop := scope.key k.runId k.artifactId = k

end RunnerScope

namespace UploadWorld

/-- The artifact has its manifest in the spool, or Core has verified it. -/
def Held (w : UploadWorld) (k : ArtifactKey) : Prop :=
  (∃ r ∈ w.spool.manifests.rows, r.manifest.toArtifactKey = k) ∨ w.core.VerifiedAt k

structure Inv (P : Platform) (scope : RunnerScope) (w : UploadWorld) : Prop where
  sound : w.core.Sound P
  manifests : ∀ r ∈ w.spool.manifests.rows, scope.Has r.manifest.toArtifactKey
  chunks : ∀ c ∈ w.spool.chunks.rows, scope.Has c.toArtifactKey ∧ w.Held c.toArtifactKey

/-- Core learns, and what is held stays held. -/
structure Later (w w' : UploadWorld) : Prop where
  core : w.core.Grows w'.core
  held : ∀ k, w.Held k → w'.Held k

/-- What a capture or a pump may do: save its artifacts, and acknowledge what bounds what is
missing. -/
def Permitted (scope : RunnerScope) (w : UploadWorld) : ArtifactOp → Prop
  | .saveArtifactManifest manifest => scope.Has manifest.toArtifactKey
  | .saveArtifactChunk chunk => scope.Has chunk.toArtifactKey ∧ w.Held chunk.toArtifactKey
  | .acknowledgeArtifactProgress progress =>
    Bounds (scope.key progress.runId progress.artifactId) progress w.core
  | _ => True

theorem Later.refl (w : UploadWorld) : Later w w := ⟨.refl _, fun _ h => h⟩

theorem Later.trans {w w' w'' : UploadWorld} (h : Later w w') (h' : Later w' w'') : Later w w'' :=
  ⟨h.core.trans h'.core, fun k hk => h'.held k (h.held k hk)⟩

theorem Permitted.later {scope : RunnerScope} {w w' : UploadWorld} {op : ArtifactOp}
    (h : Later w w') (hp : Permitted scope w op) : Permitted scope w' op := by
  cases op with
  | saveArtifactChunk chunk => exact ⟨hp.1, h.held _ hp.2⟩
  | acknowledgeArtifactProgress progress => exact Bounds.later hp h.core
  | _ => exact hp

variable {P : Platform} {scope : RunnerScope} {w : UploadWorld}

/-- A step of Core that keeps what it knows, with an unchanged spool. -/
theorem Inv.of_core {core : UploadDb} {draws : ℕ} (hi : Inv P scope w) (hs : core.Sound P)
    (hg : w.core.Grows core) : Inv P scope ⟨w.spool, core, draws⟩ ∧
      Later w ⟨w.spool, core, draws⟩ := by
  have hl : Later w ⟨w.spool, core, draws⟩ := ⟨hg, fun k hk => hk.imp id hg.verifiedAt⟩
  exact ⟨⟨hs, hi.manifests, fun c hc => ⟨(hi.chunks c hc).1, hl.held _ (hi.chunks c hc).2⟩⟩, hl⟩

theorem Inv.served (hi : Inv P scope w) (e : OpCircumstances) :
    Inv P scope (w.served P e) ∧ Later w (w.served P e) :=
  hi.of_core (sound_serve hi.sound) (grows_serve e.others w.core)

/-- The artifact of a manifest that is deleted is the one that is acknowledged. -/
theorem held_acknowledge (hi : Inv P scope w) {progress : ArtifactUploadAck}
    (hb : Bounds (scope.key progress.runId progress.artifactId) progress w.core) {k : ArtifactKey}
    (hk : w.Held k) :
    Held { w with spool := (SqliteRunnerSpool.acknowledgeArtifactProgress progress w.spool).2 }
      k := by
  rcases hk with ⟨r, hr, rfl⟩ | hv
  · rcases SqliteRunnerSpool.acknowledgeArtifactProgress_cases w.spool progress with
      he | ⟨-, he | ⟨ha, he⟩⟩
    · rw [he]
      exact .inl ⟨r, hr, rfl⟩
    · refine .inl ⟨r, ?_, rfl⟩
      dsimp only
      rw [he]
      exact hr
    · by_cases hd : r.manifest.artifactId = progress.artifactId ∧
        r.manifest.runId = progress.runId
      · -- the whole artifact is acknowledged
        right
        have hv := hb.verified ha
        rwa [← hd.1, ← hd.2, hi.manifests r hr] at hv
      · refine .inl ⟨r, ?_, rfl⟩
        dsimp only
        rw [he]
        exact List.mem_filter.mpr ⟨hr, by simp [hd]⟩
  · exact .inr hv

theorem keeps_acknowledge (hi : Inv P scope w) {progress : ArtifactUploadAck}
    (hb : Bounds (scope.key progress.runId progress.artifactId) progress w.core) :
    Inv P scope
        { w with spool := (SqliteRunnerSpool.acknowledgeArtifactProgress progress w.spool).2 } ∧
      Later w
        { w with spool := (SqliteRunnerSpool.acknowledgeArtifactProgress progress w.spool).2 } := by
  have hl : Later w
      { w with spool := (SqliteRunnerSpool.acknowledgeArtifactProgress progress w.spool).2 } :=
    ⟨.refl _, fun k hk => held_acknowledge hi hb hk⟩
  refine ⟨⟨hi.sound, fun r hr => ?_, fun c hc => ?_⟩, hl⟩
  · apply hi.manifests
    rcases SqliteRunnerSpool.acknowledgeArtifactProgress_cases w.spool progress with
      he | ⟨-, he | ⟨-, he⟩⟩
    · rwa [he] at hr
    · dsimp only at hr
      rwa [he] at hr
    · dsimp only at hr
      rw [he] at hr
      exact (List.mem_filter.mp hr).1
  · have hmem : c ∈ w.spool.chunks.rows := by
      rcases SqliteRunnerSpool.acknowledgeArtifactProgress_cases w.spool progress with
        he | ⟨he, -⟩
      · rwa [he] at hc
      · dsimp only at hc
        rw [he] at hc
        exact (List.mem_filter.mp hc).1
    exact ⟨(hi.chunks c hmem).1, hl.held _ (hi.chunks c hmem).2⟩

/-- What an operation does keeps the invariant. -/
theorem keeps_act (e : OpCircumstances) (op : ArtifactOp) (hp : Permitted scope w op)
    (hi : Inv P scope w) : Inv P scope (act P e op w).2 ∧ Later w (act P e op w).2 := by
  cases op with
  | saveArtifactManifest manifest =>
    change Inv P scope { w with spool := _ } ∧ Later w { w with spool := _ }
    rcases SqliteRunnerSpool.saveArtifactManifest_cases w.spool manifest e.now with
      he | ⟨manifests, hins, he⟩
    · rw [he]
      exact ⟨hi, .refl w⟩
    · rw [he]
      have hl : Later w { w with spool := { w.spool with manifests } } := by
        refine ⟨.refl _, fun k hk => hk.imp ?_ id⟩
        rintro ⟨r, hr, rfl⟩
        refine ⟨r, ?_, rfl⟩
        dsimp only
        rw [Table.rows_of_insert hins]
        exact List.mem_append_left _ hr
      refine ⟨⟨hi.sound, fun r hr => ?_, fun c hc =>
        ⟨(hi.chunks c hc).1, hl.held _ (hi.chunks c hc).2⟩⟩, hl⟩
      dsimp only at hr
      rw [Table.rows_of_insert hins] at hr
      rcases List.mem_append.mp hr with hr | hr
      · exact hi.manifests r hr
      · rw [List.mem_singleton.mp hr]
        exact hp
  | saveArtifactChunk chunk =>
    change Inv P scope { w with spool := _ } ∧ Later w { w with spool := _ }
    rcases SqliteRunnerSpool.saveArtifactChunk_cases (P := P) w.spool e.limits chunk with
      he | ⟨chunks, hins, he⟩
    · rw [he]
      exact ⟨hi, .refl w⟩
    · rw [he]
      refine ⟨⟨hi.sound, hi.manifests, fun c hc => ?_⟩, .refl _, fun _ h => h⟩
      dsimp only at hc
      rw [Table.rows_of_insert hins] at hc
      rcases List.mem_append.mp hc with hc | hc
      · exact hi.chunks c hc
      · rw [List.mem_singleton.mp hc]
        exact hp
  | acknowledgeArtifactProgress progress => exact keeps_acknowledge hi hp
  | registerArtifactManifest registration =>
    exact hi.of_core (ends_run hi.sound _).1 (grows_run _ _)
  | uploadArtifactChunk upload => exact hi.of_core (ends_run hi.sound _).1 (grows_run _ _)
  | pendingArtifactManifests runId => exact ⟨hi, .refl w⟩
  | pendingArtifactChunks runId artifactId missingRanges => exact ⟨hi, .refl w⟩
  | artifactUploadProgress runId artifactId => exact ⟨hi, .refl w⟩

variable (circumstances : ℕ → OpCircumstances)

/-- An operation that is answered did what it does. -/
theorem handler_of_ok {op : ArtifactOp} {a : op.Reply}
    (h : (handler P circumstances op w).1 = .ok a) :
    handler P circumstances op w =
      act P (circumstances w.draws) op (w.served P (circumstances w.draws)) := by
  unfold handler at h ⊢
  dsimp only at h ⊢
  split at h
  · rfl
  · cases h
  · cases h

theorem keeps (op : ArtifactOp) (hp : Permitted scope w op) (hi : Inv P scope w) :
    Inv P scope (handler P circumstances op w).2 ∧
      Later w (handler P circumstances op w).2 := by
  obtain ⟨his, hls⟩ := hi.served (circumstances w.draws)
  obtain ⟨hia, hla⟩ := keeps_act (circumstances w.draws) op (hp.later hls) his
  unfold handler
  dsimp only
  split
  · exact ⟨hia, hls.trans hla⟩
  · exact ⟨his, hls⟩
  · exact ⟨hia, hls.trans hla⟩

variable (P scope)

def discipline : Program.Discipline (handler P circumstances) where
  inv := Inv P scope
  later := Later
  permitted := Permitted scope
  later_refl := .refl
  later_trans _ _ _ := .trans
  permitted_later _ _ _ h hp := hp.later h
  keeps op _ hp hi := keeps circumstances op hp hi

end UploadWorld

/-! ## The programs -/

section Programs

variable {P : Platform} {scope : RunnerScope} {circumstances : ℕ → OpCircumstances}
  {w : UploadWorld}

/-- Captures and pumps keep the discipline, and what they return does not matter here. -/
abbrev Keeps (P : Platform) (scope : RunnerScope) (circumstances : ℕ → OpCircumstances)
    {α : Type} (p : Uploading α) (w : UploadWorld) : Prop :=
  Program.Assured (UploadWorld.discipline P scope circumstances) (fun _ _ => True)
    (fun _ _ => True) p w

/-- An answer of Core bounds what is missing of its artifact. -/
theorem bounds_of_event {e : UploadEvent} {ack : ArtifactUploadAck} (hi : w.Inv P scope)
    (hk : scope.Has e.call.key) (h : (w.onCore P e).1 = .ok ack) :
    Bounds (scope.key ack.runId ack.artifactId) ack (w.onCore P e).2.core := by
  obtain ⟨hb, hrun, hid⟩ := bounds_run hi.sound e (mapError_eq_ok.mp h)
  rwa [hrun, hid, hk]

/-- The answer to a call of the session bounds what is missing from then on. -/
theorem assured_session (op : ArtifactOp) {Q : UploadWorld → op.Reply → Prop}
    (hp : ∀ t, UploadWorld.Permitted scope t op)
    (hq : ∀ t e a, t.Inv P scope → (UploadWorld.act P e op t).1 = .ok a →
      Q (UploadWorld.act P e op t).2 a) :
    Program.Assured (UploadWorld.discipline P scope circumstances) (fun _ _ => True) Q
      (Uploading.perform op) w := by
  refine Program.assured_perform (hp w) fun t a _ ht _ ha => ?_
  have he := UploadWorld.handler_of_ok circumstances ha
  rw [he] at ha ⊢
  exact hq _ _ a (UploadWorld.Inv.served ht _).1 ha

theorem keeps_perform {op : ArtifactOp} (hp : UploadWorld.Permitted scope w op) :
    Keeps P scope circumstances (Uploading.perform op) w := by
  refine ⟨hp, fun t _ _ _ => ?_⟩
  dsimp only
  split <;> trivial

/-- An answer is acknowledged to the spool before the pump goes on. -/
theorem keeps_answered {p : Uploading ArtifactUploadAck} {α : Type}
    {f : ArtifactUploadAck → Uploading α} (hi : w.Inv P scope)
    (hp : Program.Assured (UploadWorld.discipline P scope circumstances) (fun _ _ => True)
      (fun t ack => Bounds (scope.key ack.runId ack.artifactId) ack t.core) p w)
    (hf : ∀ t ack, t.Inv P scope → Keeps P scope circumstances (f ack) t) :
    Keeps P scope circumstances (p.bind fun ack =>
      (Uploading.perform (.acknowledgeArtifactProgress ack)).bind fun _ => f ack) w := by
  apply Program.assured_bind hi hp
  intro t ack ht hb
  apply Program.assured_bind (M := fun _ _ => True) ht
  · exact keeps_perform hb
  · intro u _ hu _
    exact hf u ack hu

theorem assured_registerArtifactManifest (registration : ArtifactManifestRegistration)
    (hk : scope.Has registration.manifest.toArtifactKey) :
    Program.Assured (UploadWorld.discipline P scope circumstances) (fun _ _ => True)
      (fun t ack => Bounds (scope.key ack.runId ack.artifactId) ack t.core)
      (Uploading.perform (.registerArtifactManifest registration)) w :=
  assured_session (.registerArtifactManifest registration) (fun _ => trivial) fun _ e _ ht ha =>
    bounds_of_event (e := registration.event e) ht hk ha

theorem assured_uploadArtifactChunk (upload : ArtifactChunkUpload)
    (hk : scope.Has upload.chunk.toArtifactKey) :
    Program.Assured (UploadWorld.discipline P scope circumstances) (fun _ _ => True)
      (fun t ack => Bounds (scope.key ack.runId ack.artifactId) ack t.core)
      (Uploading.perform (.uploadArtifactChunk upload)) w :=
  assured_session (.uploadArtifactChunk upload) (fun _ => trivial) fun _ e _ ht ha =>
    bounds_of_event (e := upload.event e) ht hk ha

variable (lease : ExecutionJobLease)

theorem keeps_uploadChunks {chunks : List ArtifactUploadChunk} {progress : ArtifactUploadAck}
    (hi : w.Inv P scope) (hc : ∀ c ∈ chunks, scope.Has c.toArtifactKey) :
    Keeps P scope circumstances (ArtifactUploadPump.uploadChunks lease progress chunks) w := by
  induction chunks generalizing w progress with
  | nil => trivial
  | cons chunk chunks ih =>
    apply keeps_answered hi
    · exact assured_uploadArtifactChunk _ (hc chunk List.mem_cons_self)
    · intro t ack ht
      split
      · trivial
      · exact ih ht fun c h => hc c (List.mem_cons_of_mem _ h)

theorem keeps_uploadMissing {manifest : ArtifactUploadManifest} {fuel : ℕ}
    {progress : ArtifactUploadAck} (hi : w.Inv P scope) :
    Keeps P scope circumstances (ArtifactUploadPump.uploadMissing lease manifest fuel progress)
      w := by
  induction fuel generalizing w progress with
  | zero => trivial
  | succ fuel ih =>
    apply Program.assured_bind (M := fun _ chunks => ∀ c ∈ chunks, scope.Has c.toArtifactKey) hi
    · apply assured_session (.pendingArtifactChunks manifest.runId manifest.artifactId
        progress.missingRanges) fun _ => trivial
      intro t e chunks ht ha c hc
      cases ha
      exact (ht.chunks c (SqliteRunnerSpool.mem_pendingArtifactChunks.mp hc).1).1
    · intro t chunks ht hc
      split
      · trivial
      apply Program.assured_bind ht (keeps_uploadChunks lease ht hc)
      intro u progress hu _
      split
      · trivial
      · exact ih hu

theorem keeps_drainManifest {manifest : ArtifactUploadManifest} {fuel : ℕ} (hi : w.Inv P scope)
    (hk : scope.Has manifest.toArtifactKey) :
    Keeps P scope circumstances (ArtifactUploadPump.drainManifest lease fuel manifest) w := by
  apply Program.assured_bind (M := fun _ _ => True) hi
  · apply Program.assured_bind (M := fun _ _ => True) hi
    · exact assured_session (.artifactUploadProgress manifest.runId manifest.artifactId)
        (fun _ => trivial) fun _ _ _ _ _ => trivial
    · intro t progress ht _
      cases progress with
      | some progress => trivial
      | none =>
        apply keeps_answered ht
        · exact assured_registerArtifactManifest _ hk
        · intro _ _ _
          trivial
  · intro t initial ht _
    split
    · trivial
    · exact keeps_uploadMissing lease ht

theorem keeps_drainManifests {manifests : List ArtifactUploadManifest} {fuel acknowledged : ℕ}
    (hi : w.Inv P scope) (hk : ∀ manifest ∈ manifests, scope.Has manifest.toArtifactKey) :
    Keeps P scope circumstances
      (ArtifactUploadPump.drainManifests lease fuel manifests acknowledged) w := by
  induction manifests generalizing w acknowledged with
  | nil => trivial
  | cons manifest manifests ih =>
    apply Program.assured_bind hi (keeps_drainManifest lease hi (hk manifest List.mem_cons_self))
    intro t final ht _
    exact ih ht fun m hm => hk m (List.mem_cons_of_mem _ hm)

theorem keeps_drain {fuel : ℕ} {runId : String} (hi : w.Inv P scope) :
    Keeps P scope circumstances (ArtifactUploadPump.drain lease fuel runId) w := by
  apply Program.assured_bind
    (M := fun _ manifests => ∀ m ∈ manifests, scope.Has m.toArtifactKey) hi
  · apply assured_session (.pendingArtifactManifests runId) fun _ => trivial
    intro t e manifests ht ha m hm
    cases ha
    obtain ⟨r, hr, rfl, -⟩ := SqliteRunnerSpool.mem_pendingArtifactManifests.mp hm
    exact ht.manifests r hr
  · intro t manifests ht hk
    apply Program.assured_bind ht (keeps_drainManifests lease ht hk)
    intro _ _ _ _
    trivial

/-- Once the manifest is saved, it is in the spool or Core has verified the artifact. -/
theorem assured_saveArtifactManifest {manifest : ArtifactUploadManifest}
    (hk : scope.Has manifest.toArtifactKey) :
    Program.Assured (UploadWorld.discipline P scope circumstances) (fun _ _ => True)
      (fun t _ => t.Held manifest.toArtifactKey)
      (Uploading.perform (.saveArtifactManifest manifest)) w := by
  apply assured_session (.saveArtifactManifest manifest) fun _ => hk
  intro t e a _ ha
  left
  have hok := mapError_eq_ok.mp (show ((SqliteRunnerSpool.saveArtifactManifest manifest e.now
    t.spool).1.mapError UploadFailure.spool) = .ok a from ha)
  change ∃ r ∈ (SqliteRunnerSpool.saveArtifactManifest manifest e.now t.spool).2.manifests.rows, _
  unfold SqliteRunnerSpool.saveArtifactManifest at hok ⊢
  split
  · next existing hg =>
    rw [hg] at hok
    split
    · next he => exact ⟨existing, Table.mem_of_get hg, by rw [he]⟩
    · next he =>
      dsimp only at hok
      rw [if_neg he] at hok
      cases hok
  · next hg =>
    rw [hg] at hok
    split
    · next manifests hins =>
      refine ⟨⟨manifest, e.now⟩, ?_, rfl⟩
      rw [Table.rows_of_insert hins]
      exact List.mem_append_right _ List.mem_cons_self
    · next hins =>
      simp only [hins] at hok
      cases hok

theorem keeps_saveChunks {key : ArtifactKey} {chunks : List ArtifactUploadChunk}
    (hi : w.Inv P scope) (hk : scope.Has key) (hw : w.Held key)
    (hc : ∀ c ∈ chunks, c.toArtifactKey = key) :
    Keeps P scope circumstances (SpoolingArtifactObserver.saveChunks chunks) w := by
  induction chunks generalizing w with
  | nil => trivial
  | cons chunk chunks ih =>
    have he := hc chunk List.mem_cons_self
    apply Program.assured_bind_later (M := fun _ _ => True) hi
    · exact keeps_perform ⟨he ▸ hk, he ▸ hw⟩
    · intro t _ ht hl _
      exact ih ht (hl.held key hw) fun c h => hc c (List.mem_cons_of_mem _ h)

theorem keeps_spoolArtifacts {runId : String} {artifacts : List RawCapturedArtifact}
    (hi : w.Inv P scope) :
    Keeps P scope circumstances (SpoolingArtifactObserver.spoolArtifacts P scope.tenantId
      (scope.projectOf runId) runId artifacts) w := by
  induction artifacts generalizing w with
  | nil => trivial
  | cons artifact artifacts ih =>
    have hk : scope.Has (SpoolingArtifactObserver.keyFor P scope.tenantId (scope.projectOf runId)
      runId artifact) := rfl
    apply Program.assured_bind hi (assured_saveArtifactManifest hk)
    intro t _ ht hheld
    apply Program.assured_bind ht
    · refine keeps_saveChunks ht hk hheld fun c hc => ?_
      obtain ⟨offset, -, rfl⟩ := List.mem_map.mp hc
      rfl
    · intro u _ hu _
      apply Program.assured_bind hu (ih hu)
      intro _ _ _ _
      trivial

theorem keeps_body (r : UploadRequest) (hi : w.Inv P scope) :
    Keeps P scope circumstances (r.body P scope) w := by
  cases r with
  | capture runId artifacts =>
    apply Program.assured_bind hi (keeps_spoolArtifacts hi)
    intro _ _ _ _
    trivial
  | drain lease fuel runId =>
    apply Program.assured_bind hi (keeps_drain lease hi)
    intro _ _ _ _
    trivial

end Programs

/-! ## Runs -/

section Runs

variable (P : Platform) (scope : RunnerScope) (circumstances : ℕ → OpCircumstances)
  (events : List UploadEvent) (turns : List (Turn UploadRequest))

theorem sound_uploadsAfter :
    Pool.Sound (UploadWorld.discipline P scope circumstances) (fun _ _ _ => True)
      (fun _ _ _ => True) (uploadsAfter P scope circumstances events turns) := by
  apply Pool.Sound.runs
  · exact fun _ _ _ _ _ _ _ => trivial
  · exact fun r w hi => keeps_body r hi
  · refine ⟨⟨sound_after P events, ?_, ?_⟩, ?_⟩
    · exact fun _ h => absurd h List.not_mem_nil
    · exact fun _ h => absurd h List.not_mem_nil
    · exact fun _ h => absurd h List.not_mem_nil
  · exact Pool.allAllowed_of_forall (fun _ _ _ => trivial) _ turns

end Runs

section Deletion

variable {P : Platform} {scope : RunnerScope} {w : UploadWorld}

/-- A chunk that an acknowledgement deletes is not missing. -/
theorem not_missing_of_deletesChunk (hi : w.Inv P scope) {progress : ArtifactUploadAck}
    (hb : Bounds (scope.key progress.runId progress.artifactId) progress w.core)
    {c : ArtifactUploadChunk} (hc : c ∈ w.spool.chunks.rows)
    (hd : SqliteRunnerSpool.deletesChunk progress w.spool c = true) :
    ¬ w.core.Missing c.toArtifactKey c.offset := by
  obtain ⟨hscope, hheld⟩ := hi.chunks c hc
  simp only [SqliteRunnerSpool.deletesChunk, decide_eq_true_eq] at hd
  obtain ⟨hid, hd⟩ := hd
  have hkey : c.runId = progress.runId →
      scope.key progress.runId progress.artifactId = c.toArtifactKey := by
    intro hrun
    rw [← hrun, ← hid]
    exact hscope
  split at hd
  · next ha =>
    by_cases hrun : c.runId = progress.runId
    · have hv := hb.verified ha
      rw [hkey hrun] at hv
      exact hv.not_missing
    · -- the manifest of another run under the same id
      have hdel := hd.resolve_left hrun
      rcases hheld with ⟨r, hr, hk⟩ | hv
      · unfold SqliteRunnerSpool.deletesManifest at hdel
        have hg : w.spool.manifests.get progress.artifactId = some r := by
          refine Table.get_eq_some_iff.mpr ⟨hr, ?_⟩
          unfold SpoolManifestRow.key
          rw [hk]
          exact hid
        rw [hg, Option.any_some, decide_eq_true_eq, hk] at hdel
        exact absurd hdel hrun
      · exact hv.not_missing
  · obtain ⟨hrun, hnot⟩ := hd
    intro hm
    rw [← hkey hrun] at hm
    obtain ⟨range, hr, hcover⟩ := hb.missing _ hm
    rw [isMissing_iff.mpr ⟨range, hr, hcover⟩] at hnot
    cases hnot

/-- What an operation deletes is not missing. -/
theorem not_missing_of_act {op : ArtifactOp} (e : OpCircumstances) (hi : w.Inv P scope)
    (hp : UploadWorld.Permitted scope w op) {c : ArtifactUploadChunk}
    (hc : c ∈ w.spool.chunks.rows)
    (hgone : c ∉ (UploadWorld.act P e op w).2.spool.chunks.rows) :
    ¬ (UploadWorld.act P e op w).2.core.Missing c.toArtifactKey c.offset := by
  cases op with
  | acknowledgeArtifactProgress progress =>
    apply not_missing_of_deletesChunk hi hp hc
    change c ∉ (SqliteRunnerSpool.acknowledgeArtifactProgress progress w.spool).2.chunks.rows
      at hgone
    rcases SqliteRunnerSpool.acknowledgeArtifactProgress_cases w.spool progress with
      he | ⟨he, -⟩
    · rw [he] at hgone
      exact absurd hc hgone
    · rw [he] at hgone
      by_contra hd
      exact hgone (List.mem_filter.mpr ⟨hc, by simpa using hd⟩)
  | saveArtifactManifest manifest =>
    refine absurd ?_ hgone
    change c ∈ (SqliteRunnerSpool.saveArtifactManifest manifest e.now w.spool).2.chunks.rows
    rcases SqliteRunnerSpool.saveArtifactManifest_cases w.spool manifest e.now with
      he | ⟨manifests, -, he⟩
    · rw [he]
      exact hc
    · rw [he]
      exact hc
  | saveArtifactChunk chunk =>
    refine absurd ?_ hgone
    change c ∈ (SqliteRunnerSpool.saveArtifactChunk P e.limits chunk w.spool).2.chunks.rows
    rcases SqliteRunnerSpool.saveArtifactChunk_cases (P := P) w.spool e.limits chunk with
      he | ⟨chunks, hins, he⟩
    · rw [he]
      exact hc
    · rw [he]
      dsimp only
      rw [Table.rows_of_insert hins]
      exact List.mem_append_left _ hc
  | _ => exact absurd hc hgone

/-- What an operation deletes, failing or not, is not missing when the next one is performed. -/
theorem not_missing_of_handler {circumstances : ℕ → OpCircumstances} {op : ArtifactOp}
    (hi : w.Inv P scope) (hp : UploadWorld.Permitted scope w op) {c : ArtifactUploadChunk}
    (hc : c ∈ w.spool.chunks.rows)
    (hgone : c ∉ (UploadWorld.handler P circumstances op w).2.spool.chunks.rows) :
    ¬ (UploadWorld.handler P circumstances op w).2.core.Missing c.toArtifactKey c.offset := by
  obtain ⟨his, hls⟩ := hi.served (circumstances w.draws)
  have hps := hp.later hls
  unfold UploadWorld.handler at hgone ⊢
  dsimp only at hgone ⊢
  split at hgone
  · exact not_missing_of_act (circumstances w.draws) his hps hc hgone
  · exact absurd hc hgone
  · exact not_missing_of_act (circumstances w.draws) his hps hc hgone

end Deletion

/-- In every run, a chunk that leaves the spool is not reported missing for an artifact that is not
acknowledged. -/
theorem not_missing_of_step (P : Platform) (scope : RunnerScope)
    (circumstances : ℕ → OpCircumstances) (events : List UploadEvent)
    (turns : List (Turn UploadRequest)) (t : Turn UploadRequest) {c : ArtifactUploadChunk}
    (hc : c ∈ (uploadsAfter P scope circumstances events turns).shared.spool.chunks.rows)
    (hgone : c ∉
      (uploadsAfter P scope circumstances events (turns ++ [t])).shared.spool.chunks.rows) :
    ¬ (uploadsAfter P scope circumstances events (turns ++ [t])).shared.core.Missing
      c.toArtifactKey c.offset := by
  have hs := sound_uploadsAfter P scope circumstances events turns
  have hstep : uploadsAfter P scope circumstances events (turns ++ [t]) =
      (uploadsAfter P scope circumstances events turns).step
        (UploadWorld.handler P circumstances) (UploadRequest.body P scope) t := Pool.runs_append
  rw [hstep] at hgone ⊢
  generalize uploadsAfter P scope circumstances events turns = p at hs hc hgone
  cases t with
  | spawn r => exact absurd hc hgone
  | advance i =>
    unfold Pool.step at hgone ⊢
    dsimp only at hgone ⊢
    split at hgone
    · next r op next he =>
      obtain ⟨hp, -⟩ := hs.2 _ (List.mem_of_getElem? he)
      exact not_missing_of_handler hs.1 hp hc hgone
    · exact absurd hc hgone

end Qualigence.Runner
