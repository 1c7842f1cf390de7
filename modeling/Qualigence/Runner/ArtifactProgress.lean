import Qualigence.Runner.ArtifactSafety

/-! # Upload progress

The chunks of the observer lie at the cuts of the artifact, which are also the ranges that Core
reports. A pass uploads every spooled chunk that may be missing, so that nothing is missing after
its last chunk, and Core then commits the artifact and acknowledges it.
-/

namespace Qualigence.Runner

open Foundation Protocol Evidence SpoolingArtifactObserver

/-! ## An artifact of the observer at Core -/

/-- Core has the manifest of a captured artifact, registered by the Runner, and received some of
its chunks. -/
structure Receiving (P : Platform) (runnerId : String) (key : ArtifactKey)
    (artifact : RawCapturedArtifact) (db : UploadDb) : Prop where
  sound : db.Sound P
  valid : validateManifest (manifestFor P key artifact) = true
  manifest : ∃ m ∈ db.manifests.rows,
    m.toArtifactUploadManifest = manifestFor P key artifact ∧ m.registeredByRunnerId = runnerId
  received : ∀ c ∈ InMemoryArtifactUploadStore.chunks key db,
    c.toArtifactUploadChunk ∈ chunksFor P key artifact.bytes

section Service

variable {P : Platform} {runnerId : String} {key : ArtifactKey} {artifact : RawCapturedArtifact}
  {db : UploadDb} {m : ArtifactUploadManifestRecord} {path : String} {now : Timestamp}

theorem nonEmpty_of_valid (h : validateManifest (manifestFor P key artifact) = true) :
    nonEmpty key.artifactId ∧ nonEmpty key.tenantId ∧ nonEmpty key.projectId ∧
      nonEmpty key.runId ∧ artifact.bytes.length ≤ maxSafeInteger := by
  unfold validateManifest manifestFor at h
  simp only [decide_eq_true_eq] at h
  exact ⟨h.1, h.2.1, h.2.2.1, h.2.2.2.1, h.2.2.2.2.2.2.2.1⟩

theorem length_sliceAt (bytes : List UInt8) (offset : ℕ) :
    (sliceAt bytes offset).length = min artifactChunkSizeBytes (bytes.length - offset) := by
  unfold sliceAt
  rw [List.length_take, List.length_drop]

/-- The chunks of the observer pass the checks of Core. -/
theorem validateChunk_chunkAt (hhex : ∀ bytes, isSha256Hex (P.sha256Hex bytes) = true)
    (hv : validateManifest (manifestFor P key artifact) = true) {offset : ℕ}
    (ho : offset ∈ cuts artifact.bytes.length artifactChunkSizeBytes) :
    validateChunk P (chunkAt P key artifact.bytes offset) = true := by
  obtain ⟨hid, htenant, hproject, hrun, hsize⟩ := nonEmpty_of_valid hv
  obtain ⟨hlt, hdvd⟩ := (mem_cuts artifactChunkSizeBytes_pos).mp ho
  unfold validateChunk chunkAt
  simp only [hid, htenant, hproject, hrun, hhex, length_sliceAt, decide_eq_true_eq, true_and]
  exact ⟨by omega, Nat.mod_eq_zero_of_dvd hdvd, by omega, trivial⟩

theorem chunkFits_chunkAt (hm : m.toArtifactUploadManifest = manifestFor P key artifact) {offset : ℕ}
    (ho : offset ∈ cuts artifact.bytes.length artifactChunkSizeBytes) :
    ArtifactUploadService.chunkFits (chunkAt P key artifact.bytes offset) m = true := by
  obtain ⟨hlt, -⟩ := (mem_cuts artifactChunkSizeBytes_pos).mp ho
  have hsize : m.sizeBytes = artifact.bytes.length :=
    congrArg ArtifactUploadManifest.sizeBytes hm
  have hchunk : m.chunkSizeBytes = artifactChunkSizeBytes :=
    congrArg ArtifactUploadManifest.chunkSizeBytes hm
  unfold ArtifactUploadService.chunkFits chunkAt
  simp only [hsize, hchunk, length_sliceAt, decide_eq_true_eq]
  exact ⟨by omega, trivial⟩

/-- Assembled from all chunks of the observer, the bytes are those of the artifact. -/
theorem assemble_artifact (hs : db.Sound P) (hm : m ∈ db.manifests.rows)
    (he : m.toArtifactUploadManifest = manifestFor P key artifact)
    (hc : ∀ c ∈ InMemoryArtifactUploadStore.chunks key db,
      c.toArtifactUploadChunk ∈ chunksFor P key artifact.bytes)
    (hmiss : missingRanges m.toArtifactUploadManifest
      (InMemoryArtifactUploadStore.chunks m.key db) = []) :
    (InMemoryArtifactUploadStore.chunks m.key db).flatMap (·.bytes) = artifact.bytes := by
  have hk : m.key = key := congrArg (·.toArtifactKey) he
  have hsize : m.sizeBytes = artifact.bytes.length :=
    congrArg ArtifactUploadManifest.sizeBytes he
  have hslice : ∀ c ∈ InMemoryArtifactUploadStore.chunks m.key db,
      c.bytes = sliceAt artifact.bytes c.offset := by
    intro c hcm
    rw [hk] at hcm
    obtain ⟨offset, -, hoff⟩ := List.mem_map.mp (hc c hcm)
    have h₁ : offset = c.offset := congrArg ArtifactUploadChunk.offset hoff
    have h₂ : sliceAt artifact.bytes offset = c.bytes := congrArg ArtifactUploadChunk.bytes hoff
    rw [← h₂, h₁]
  have hflat : (InMemoryArtifactUploadStore.chunks m.key db).flatMap (·.bytes) =
      ((InMemoryArtifactUploadStore.chunks m.key db).map (·.offset)).flatMap
        (sliceAt artifact.bytes) := by
    rw [List.flatMap_map]
    exact List.flatMap_congr hslice
  rw [hflat]
  rcases Nat.eq_zero_or_pos m.sizeBytes with hz | hpos
  · have hnil : artifact.bytes = [] := List.eq_nil_of_length_eq_zero (by omega)
    rw [hnil, List.flatMap_eq_nil_iff]
    intro offset _
    unfold sliceAt
    rw [List.drop_nil, List.take_nil]
  · rw [hs.offsets_eq hm hpos hmiss, hsize]
    exact flatMap_cuts artifactChunkSizeBytes_pos artifact.bytes

/-- Core answers, and it only marks the artifact verified. -/
theorem progressFor_receiving (path : String) (now : Timestamp) (hr : Receiving P runnerId key artifact db)
    (hm : m ∈ db.manifests.rows) (he : m.toArtifactUploadManifest = manifestFor P key artifact) :
    ∃ ack, (ArtifactUploadService.progressFor P .committed path now m db).1 = .ok ack ∧
      (ArtifactUploadService.progressFor P .committed path now m db).2.chunkRows =
        db.chunkRows := by
  unfold ArtifactUploadService.progressFor
  split
  · exact ⟨_, rfl, rfl⟩
  dsimp only
  split
  · exact ⟨_, rfl, rfl⟩
  next hmiss =>
  rw [not_not] at hmiss
  have hflat := assemble_artifact hr.sound hm he hr.received hmiss
  have hsize : m.sizeBytes = artifact.bytes.length :=
    congrArg ArtifactUploadManifest.sizeBytes he
  have hsha : m.sha256 = P.sha256Hex artifact.bytes := congrArg ArtifactUploadManifest.sha256 he
  have hassemble := hr.sound.assemble_eq hm hmiss
  rw [hflat] at hassemble
  have hok : ¬ (artifact.bytes.length ≠ m.sizeBytes ∨ P.sha256Hex artifact.bytes ≠ m.sha256) := by
    rw [hsize, hsha]
    simp
  unfold ArtifactUploadService.verifyAndCommit
  simp only [hassemble, if_neg hok]
  exact ⟨_, rfl, rfl⟩

theorem chunks_of_chunkRows {db' : UploadDb} (h : db'.chunkRows = db.chunkRows)
    (key : ArtifactKey) : InMemoryArtifactUploadStore.chunks key db' =
      InMemoryArtifactUploadStore.chunks key db := by
  unfold InMemoryArtifactUploadStore.chunks
  rw [h]

/-- The registered manifest is the only one of its artifact. -/
theorem Receiving.manifest_eq (hr : Receiving P runnerId key artifact db)
    (hm : m ∈ db.manifests.rows) (hk : m.key = key) :
    m.toArtifactUploadManifest = manifestFor P key artifact := by
  obtain ⟨m', hm', he, -⟩ := hr.manifest
  have hk' : m'.key = key := congrArg (·.toArtifactKey) he
  rwa [UploadDb.Sound.eq_of_key hm hm' (hk'.trans hk.symm)] at he

/-- The state of an artifact after a call that grows the stores. -/
theorem Receiving.later {db' : UploadDb} (hr : Receiving P runnerId key artifact db)
    (hg : db.Grows db') (hs : db'.Sound P)
    (hc : ∀ c ∈ InMemoryArtifactUploadStore.chunks key db',
      c.toArtifactUploadChunk ∈ chunksFor P key artifact.bytes) :
    Receiving P runnerId key artifact db' := by
  obtain ⟨m, hm, he, hrun⟩ := hr.manifest
  obtain ⟨m', hm', he', hrun', -⟩ := hg.manifests m hm
  exact ⟨hs, hr.valid, ⟨m', hm', he'.trans he, hrun'.trans hrun⟩, hc⟩

/-- A chunk of the observer is stored, or it was. -/
theorem appendChunk_receiving (now : Timestamp) (hr : Receiving P runnerId key artifact db)
    (hm : m ∈ db.manifests.rows) (he : m.toArtifactUploadManifest = manifestFor P key artifact)
    (hst : m.status ≠ .verified) {offset : ℕ}
    (ho : offset ∈ cuts artifact.bytes.length artifactChunkSizeBytes) :
    ∃ result db', InMemoryArtifactUploadStore.appendChunk (ArtifactUploadService.chunkRecord now
        (chunkAt P key artifact.bytes offset)) db = (result, db') ∧ result ≠ .conflict ∧
      db'.manifests = db.manifests ∧ Receiving P runnerId key artifact db' ∧
      ∃ c ∈ InMemoryArtifactUploadStore.chunks key db', c.offset = offset := by
  have hk : m.key = key := congrArg (·.toArtifactKey) he
  unfold InMemoryArtifactUploadStore.appendChunk
  split
  · next existing hg =>
    -- what was received at this offset is the chunk of the observer
    have hkey : existing.key = (key, offset) := Table.key_of_get hg
    have hmem : existing ∈ InMemoryArtifactUploadStore.chunks key db :=
      mem_chunks.mpr ⟨Table.mem_of_get hg, congrArg Prod.fst hkey⟩
    obtain ⟨offset', -, hoff⟩ := List.mem_map.mp (hr.received existing hmem)
    have heq : offset' = offset :=
      (congrArg ArtifactUploadChunk.offset hoff).trans (congrArg Prod.snd hkey)
    subst heq
    have hsame : existing.sha256 = (chunkAt P key artifact.bytes offset').sha256 ∧
        existing.bytes = (chunkAt P key artifact.bytes offset').bytes := by
      rw [hoff]
      exact ⟨rfl, rfl⟩
    refine ⟨_, _, if_pos hsame, nofun, rfl, hr, existing, hmem, congrArg Prod.snd hkey⟩
  · next hg =>
    obtain ⟨chunkRows, hins⟩ := Table.exists_insert hg
    rw [hins]
    refine ⟨_, _, rfl, nofun, rfl, ⟨?_, hr.valid, hr.manifest, ?_⟩, ?_⟩
    · refine sound_appendChunk hr.sound hins hm hk hst ?_
      have hf := chunkFits_chunkAt he ho
      simp only [ArtifactUploadService.chunkFits, hr.sound.chunkSize m hm,
        decide_eq_true_eq] at hf
      exact ⟨((mem_cuts artifactChunkSizeBytes_pos).mp ho).2, hf⟩
    · intro c hc
      obtain ⟨hrow, hck⟩ := mem_chunks.mp hc
      dsimp only at hrow
      rw [Table.rows_of_insert hins] at hrow
      rcases List.mem_append.mp hrow with hrow | hrow
      · exact hr.received c (mem_chunks.mpr ⟨hrow, hck⟩)
      · rw [List.mem_singleton.mp hrow]
        exact List.mem_map_of_mem ho
    · refine ⟨ArtifactUploadService.chunkRecord now (chunkAt P key artifact.bytes offset),
        mem_chunks.mpr ⟨?_, rfl⟩, rfl⟩
      dsimp only
      rw [Table.rows_of_insert hins]
      exact List.mem_append_right _ List.mem_cons_self

/-- The upload of a chunk of the observer. -/
def uploadEvent (P : Platform) (runnerId : String) (key : ArtifactKey) (bytes : List UInt8)
    (offset : ℕ) (path : String) (now : Timestamp) : UploadEvent where
  call := .uploadChunk ⟨key, runnerId, chunkAt P key bytes offset⟩
  outcome := .committed
  relativePath := path
  now := now

/-- Core accepts a chunk of the observer, which is not missing any more. -/
theorem run_uploadEvent (path : String) (now : Timestamp)
    (hhex : ∀ bytes, isSha256Hex (P.sha256Hex bytes) = true)
    (hr : Receiving P runnerId key artifact db) {offset : ℕ}
    (ho : offset ∈ cuts artifact.bytes.length artifactChunkSizeBytes) :
    let r := (uploadEvent P runnerId key artifact.bytes offset path now).run P db
    ∃ ack, r.1 = .ok ack ∧ Receiving P runnerId key artifact r.2 ∧ ¬ r.2.Missing key offset := by
  obtain ⟨m, hm, he, hrun⟩ := hr.manifest
  have hk : m.key = key := congrArg (·.toArtifactKey) he
  have hg : InMemoryArtifactUploadStore.manifest key db = some m :=
    Table.get_eq_some_iff.mpr ⟨hm, hk⟩
  have hvalid := validateChunk_chunkAt hhex hr.valid ho
  have hfits := chunkFits_chunkAt (m := m) he ho
  change ∃ ack, (ArtifactUploadService.uploadChunk P .committed path now
    ⟨key, runnerId, chunkAt P key artifact.bytes offset⟩ db).1 = .ok ack ∧ Receiving P runnerId key
      artifact (ArtifactUploadService.uploadChunk P .committed path now
        ⟨key, runnerId, chunkAt P key artifact.bytes offset⟩ db).2 ∧
      ¬ (ArtifactUploadService.uploadChunk P .committed path now
        ⟨key, runnerId, chunkAt P key artifact.bytes offset⟩ db).2.Missing key offset
  unfold ArtifactUploadService.uploadChunk
  simp only [hvalid, Bool.not_true, Bool.false_eq_true, if_false]
  rw [if_neg (show ¬ (chunkAt P key artifact.bytes offset).toArtifactKey ≠ key from
    not_not.mpr rfl)]
  simp only [show (chunkAt P key artifact.bytes offset).toArtifactKey = key from rfl, hg, hrun, hk,
    ne_eq, not_true_eq_false, if_false, hfits, Bool.not_true, Bool.false_eq_true]
  split
  · next hst => exact ⟨_, rfl, hr, UploadDb.VerifiedAt.not_missing ⟨m, hm, hk, hst⟩⟩
  next hst =>
  obtain ⟨result, db', happ, hconf, hmanifests, hr', c, hc, hoff⟩ :=
    appendChunk_receiving now hr hm he hst ho
  rw [happ]
  have hm' : m ∈ db'.manifests.rows := hmanifests ▸ hm
  obtain ⟨ack, hack, hrows⟩ := progressFor_receiving path now hr' hm' he
  have hsound := (ends_progressFor .committed path now hr'.sound hm').1
  have hchunks := chunks_of_chunkRows hrows key
  have hlast : Receiving P runnerId key artifact
      (ArtifactUploadService.progressFor P .committed path now m db').2 := by
    refine hr'.later grows_progressFor hsound fun d hd => ?_
    rw [hchunks] at hd
    exact hr'.received d hd
  have hgone : ¬ (ArtifactUploadService.progressFor P .committed path now m db').2.Missing key
      offset := by
    rw [← hoff]
    refine not_missing_of_mem hsound ?_
    rw [hchunks]
    exact hc
  cases result with
  | conflict => exact absurd rfl hconf
  | accepted => exact ⟨ack, hack, hlast, hgone⟩
  | duplicate => exact ⟨ack, hack, hlast, hgone⟩

end Service

/-! ## The passes -/

/-- No operation fails, others do nothing, and every commit succeeds. -/
structure Undisturbed (runnerId : String) (circumstances : ℕ → OpCircumstances) : Prop where
  others : ∀ n, (circumstances n).others = []
  fault : ∀ n, (circumstances n).fault = .none
  runner : ∀ n, (circumstances n).runnerId = runnerId
  outcome : ∀ n, (circumstances n).outcome = .committed

section Pass

variable {P : Platform} {runnerId : String} {key : ArtifactKey} {artifact : RawCapturedArtifact}
  {circumstances : ℕ → OpCircumstances} {w : UploadWorld} (lease : ExecutionJobLease)

theorem handler_undisturbed (hu : Undisturbed runnerId circumstances) (op : ArtifactOp) :
    UploadWorld.handler P circumstances op w =
      UploadWorld.act P (circumstances w.draws) op { w with draws := w.draws + 1 } := by
  unfold UploadWorld.handler
  simp only [hu.fault]
  unfold UploadWorld.served
  rw [hu.others]
  rfl

/-- The transfer of an artifact is under way: Core receives it and the spool has its manifest. -/
structure Transfer (P : Platform) (runnerId : String) (key : ArtifactKey)
    (artifact : RawCapturedArtifact) (w : UploadWorld) : Prop where
  core : Receiving P runnerId key artifact w.core
  spool : (w.spool.manifests.get key.artifactId).isSome

/-- What a pass and the loop end with. -/
def Acknowledges (key : ArtifactKey) (r : Except UploadFailure ArtifactUploadAck)
    (w : UploadWorld) : Prop :=
  ∃ ack, r = .ok ack ∧ ack.acknowledged = true ∧ w.core.VerifiedAt key

/-- An answer that does not acknowledge reports a cut. -/
theorem cut_of_unacknowledged {e : UploadEvent} {db : UploadDb} {ack : ArtifactUploadAck}
    (hr : ∀ m ∈ (e.run P db).2.manifests.rows, m.key = e.call.key →
      m.toArtifactUploadManifest = manifestFor P e.call.key artifact)
    (h : (e.run P db).1 = .ok ack) (hack : ack.acknowledged = false) :
    ∃ offset ∈ cuts artifact.bytes.length artifactChunkSizeBytes,
      isMissing ack.missingRanges offset ∧ (e.run P db).2.Missing e.call.key offset := by
  obtain ⟨m, hm, hk, hst, hne, hranges⟩ := reports_run e db ack h hack
  have he := hr m hm hk
  have hsize : m.sizeBytes = artifact.bytes.length :=
    congrArg ArtifactUploadManifest.sizeBytes he
  have hchunk : m.chunkSizeBytes = artifactChunkSizeBytes :=
    congrArg ArtifactUploadManifest.chunkSizeBytes he
  obtain ⟨range, hrange⟩ := List.exists_mem_of_ne_nil _ hne
  have hmem := hrange
  rw [hranges] at hmem
  obtain ⟨offset, ho, rfl⟩ := List.mem_map.mp hmem
  have hcut := (List.mem_filter.mp ho).1
  rw [hsize, hchunk] at hcut
  have hcover : ArtifactByteRange.Covers
      ⟨offset, min m.chunkSizeBytes (m.sizeBytes - offset)⟩ offset := by
    have hlt := ((mem_cuts artifactChunkSizeBytes_pos).mp hcut).1
    have hpos := artifactChunkSizeBytes_pos
    refine ⟨le_rfl, ?_⟩
    dsimp only
    omega
  exact ⟨offset, hcut, isMissing_iff.mpr ⟨_, hrange, hcover⟩, m, hm, hk, hst, _, hmem, hcover⟩

/-- With the manifest in the spool, every answer can be acknowledged. -/
theorem acknowledgeArtifactProgress_ok {progress : ArtifactUploadAck} {db : ArtifactSpoolDb}
    (h : (db.manifests.get progress.artifactId).isSome) :
    (SqliteRunnerSpool.acknowledgeArtifactProgress progress db).1 = .ok () ∧
      (progress.acknowledged = false →
        (SqliteRunnerSpool.acknowledgeArtifactProgress progress db).2.manifests =
          db.manifests) := by
  have hsome : ¬ ((db.manifests.get progress.artifactId).isNone = true) := by
    rw [Option.isNone_iff_eq_none, ← Option.not_isSome_iff_eq_none, h]
    simp
  unfold SqliteRunnerSpool.acknowledgeArtifactProgress
  dsimp only
  split
  · next ha => exact ⟨rfl, fun hna => absurd ha (by rw [hna]; exact Bool.false_ne_true)⟩
  · exact ⟨rfl, fun _ => rfl⟩

/-- A chunk is uploaded and its answer is acknowledged to the spool: fewer offsets are missing. -/
theorem ends_upload {α : Type} {f : ArtifactUploadAck → Uploading α}
    {Q : Except UploadFailure α → UploadWorld → Prop}
    (hhex : ∀ bytes, isSha256Hex (P.sha256Hex bytes) = true)
    (hu : Undisturbed runnerId circumstances) (hw : Transfer P runnerId key artifact w)
    {offset : ℕ} (ho : offset ∈ cuts artifact.bytes.length artifactChunkSizeBytes)
    {upload : ArtifactChunkUpload} (hc : upload.chunk = chunkAt P key artifact.bytes offset)
    (hf : ∀ ack t, w.core.Grows t.core → ¬ t.core.Missing key offset →
      (ack.acknowledged = true → t.core.VerifiedAt key) →
      (ack.acknowledged = false → Transfer P runnerId key artifact t ∧
        ∃ offset' ∈ cuts artifact.bytes.length artifactChunkSizeBytes,
          t.core.Missing key offset') →
      (f ack).Ends (UploadWorld.handler P circumstances) Q t) :
    ((Uploading.perform (.uploadArtifactChunk upload)).bind fun ack =>
      (Uploading.perform (.acknowledgeArtifactProgress ack)).bind fun _ => f ack).Ends
      (UploadWorld.handler P circumstances) Q w := by
  obtain ⟨ack, hack, hreceiving, hgone⟩ := run_uploadEvent
    (circumstances w.draws).relativePath (circumstances w.draws).now hhex hw.core ho
  have hgrows := grows_run (P := P) (uploadEvent P runnerId key artifact.bytes offset
    (circumstances w.draws).relativePath (circumstances w.draws).now) w.core
  obtain ⟨hbounds, -, hid⟩ := bounds_run hw.core.sound _ hack
  have hcut := cut_of_unacknowledged (fun _ => hreceiving.manifest_eq) hack
  have hevent : upload.event (circumstances w.draws) =
      uploadEvent P runnerId key artifact.bytes offset (circumstances w.draws).relativePath
        (circumstances w.draws).now := by
    unfold ArtifactChunkUpload.event uploadEvent
    rw [hu.runner, hu.outcome, hc]
    rfl
  have hkey : (uploadEvent P runnerId key artifact.bytes offset
    (circumstances w.draws).relativePath (circumstances w.draws).now).call.key = key := rfl
  rw [hkey] at hbounds hcut hid
  rw [← hevent] at hack hreceiving hgone hgrows hbounds hcut
  -- the upload
  have hfirst : UploadWorld.handler P circumstances (.uploadArtifactChunk upload) w =
      (.ok ack, ⟨w.spool, ((upload.event (circumstances w.draws)).run P w.core).2,
        w.draws + 1⟩) := by
    rw [handler_undisturbed hu]
    exact Prod.ext (mapError_eq_ok.mpr hack) rfl
  refine Program.ends_step hfirst ?_
  -- its acknowledgement
  have hsome : (w.spool.manifests.get ack.artifactId).isSome := by
    rw [hid]
    exact hw.spool
  obtain ⟨hok, hkept⟩ := acknowledgeArtifactProgress_ok hsome
  have hsecond : UploadWorld.handler P circumstances (.acknowledgeArtifactProgress ack)
      ⟨w.spool, ((upload.event (circumstances w.draws)).run P w.core).2, w.draws + 1⟩ =
      (.ok (), ⟨(SqliteRunnerSpool.acknowledgeArtifactProgress ack w.spool).2,
        ((upload.event (circumstances w.draws)).run P w.core).2, w.draws + 2⟩) := by
    rw [handler_undisturbed hu]
    exact Prod.ext (mapError_eq_ok.mpr hok) rfl
  refine Program.ends_step hsecond ?_
  refine hf ack _ hgrows hgone hbounds.verified fun hna => ⟨⟨hreceiving, ?_⟩, ?_⟩
  · dsimp only
    rw [hkept hna]
    exact hw.spool
  · obtain ⟨offset', ho', -, hmiss⟩ := hcut hna
    exact ⟨offset', ho', hmiss⟩

/-- A pass over spooled chunks that cover what is missing ends with an acknowledgement. -/
theorem ends_uploadChunks (hhex : ∀ bytes, isSha256Hex (P.sha256Hex bytes) = true)
    (hu : Undisturbed runnerId circumstances) (hw : Transfer P runnerId key artifact w)
    {chunks : List ArtifactUploadChunk} {progress : ArtifactUploadAck} (hne : chunks ≠ [])
    (hc : ∀ c ∈ chunks, c ∈ chunksFor P key artifact.bytes)
    (hmiss : ∀ offset ∈ cuts artifact.bytes.length artifactChunkSizeBytes,
      w.core.Missing key offset → ∃ c ∈ chunks, c.offset = offset) :
    (ArtifactUploadPump.uploadChunks lease progress chunks).Ends
      (UploadWorld.handler P circumstances) (Acknowledges key) w := by
  induction chunks generalizing w progress with
  | nil => exact absurd rfl hne
  | cons chunk chunks ih =>
    obtain ⟨offset, ho, rfl⟩ := List.mem_map.mp (hc chunk List.mem_cons_self)
    refine ends_upload hhex hu hw ho rfl fun ack t hgrows hgone hverified hmore => ?_
    split
    · next hack => exact ⟨ack, rfl, hack, hverified hack⟩
    · next hack =>
      rw [Bool.not_eq_true] at hack
      obtain ⟨ht, offset', ho', hmiss'⟩ := hmore hack
      -- what is missing now was missing before, and it is not this chunk
      have hreg : ∃ m ∈ w.core.manifests.rows, m.key = key := by
        obtain ⟨m, hm, he, -⟩ := hw.core.manifest
        exact ⟨m, hm, congrArg (·.toArtifactKey) he⟩
      have hrest : ∀ offset'' ∈ cuts artifact.bytes.length artifactChunkSizeBytes,
          t.core.Missing key offset'' → ∃ c ∈ chunks, c.offset = offset'' := by
        intro offset'' ho'' hm
        obtain ⟨c, hcm, rfl⟩ := hmiss offset'' ho'' (hgrows.missing hreg hm)
        rcases List.mem_cons.mp hcm with rfl | hcm
        · exact absurd hm hgone
        · exact ⟨c, hcm, rfl⟩
      apply ih ht
      · obtain ⟨c, hcm, -⟩ := hrest offset' ho' hmiss'
        exact List.ne_nil_of_mem hcm
      · exact fun c h => hc c (List.mem_cons_of_mem _ h)
      · exact hrest

end Pass

/-! ## The loop -/

/-- An artifact of the observer, all of whose chunks are spooled, while Core has some of them, with
an answer that Core gave for it. -/
structure Spooled (P : Platform) (runnerId : String) (key : ArtifactKey)
    (artifact : RawCapturedArtifact) (initial : ArtifactUploadAck) (w : UploadWorld) : Prop where
  manifest : ∃ r ∈ w.spool.manifests.rows, r.manifest = manifestFor P key artifact
  chunks : ∀ c, c ∈ w.spool.chunks.rows ∧ c.runId = key.runId ∧ c.artifactId = key.artifactId ↔
    c ∈ chunksFor P key artifact.bytes
  answered : ∃ past e later, w.core = UploadDb.after P (past ++ e :: later) ∧ e.call.key = key ∧
    (e.run P (UploadDb.after P past)).1 = .ok initial
  registered : ∃ m ∈ w.core.manifests.rows,
    m.toArtifactUploadManifest = manifestFor P key artifact ∧ m.registeredByRunnerId = runnerId
  received : ∀ c ∈ InMemoryArtifactUploadStore.chunks key w.core,
    c.toArtifactUploadChunk ∈ chunksFor P key artifact.bytes

section Loop

variable {P : Platform} {runnerId : String} {key : ArtifactKey} {artifact : RawCapturedArtifact}
  {initial : ArtifactUploadAck} {circumstances : ℕ → OpCircumstances} {w : UploadWorld}

theorem Spooled.transfer (h : Spooled P runnerId key artifact initial w) :
    Transfer P runnerId key artifact w := by
  obtain ⟨past, e, later, hcore, -⟩ := h.answered
  obtain ⟨m, hm, he, hrun⟩ := h.registered
  refine ⟨⟨?_, ?_, h.registered, h.received⟩, ?_⟩
  · rw [hcore]
    exact sound_after P _
  · rw [← he]
    rw [hcore] at hm
    exact validated_after _ m hm
  · obtain ⟨r, hr, hrm⟩ := h.manifest
    have hg : w.spool.manifests.get key.artifactId = some r := by
      refine Table.get_eq_some_iff.mpr ⟨hr, ?_⟩
      unfold SpoolManifestRow.key
      rw [hrm]
      rfl
    rw [hg]
    rfl

theorem after_append (past later : List UploadEvent) :
    UploadDb.after P (past ++ later) = (UploadDb.after P past).serve P later :=
  List.foldl_append

/-- The answer bounds what is missing now, and unless it acknowledges it reports a cut. -/
theorem Spooled.answer (h : Spooled P runnerId key artifact initial w) :
    Bounds key initial w.core ∧ (initial.acknowledged = false →
      ∃ offset ∈ cuts artifact.bytes.length artifactChunkSizeBytes,
        isMissing initial.missingRanges offset) := by
  have hr := h.transfer.core
  obtain ⟨past, e, later, hcore, rfl, hanswer⟩ := h.answered
  have hs := sound_after P past
  have hgrows : ((e.run P (UploadDb.after P past)).2).Grows w.core := by
    rw [hcore, after_append]
    exact grows_serve later _
  -- the manifest of that time is the one there is
  have hmanifest : ∀ m ∈ (e.run P (UploadDb.after P past)).2.manifests.rows, m.key = e.call.key →
      m.toArtifactUploadManifest = manifestFor P e.call.key artifact := by
    intro m hm hk
    obtain ⟨m', hm', he', -⟩ := hgrows.manifests m hm
    rw [← he']
    exact hr.manifest_eq hm' ((congrArg (·.toArtifactKey) he').trans hk)
  refine ⟨(bounds_run hs e hanswer).1.later hgrows, fun hack => ?_⟩
  obtain ⟨offset, ho, hmiss, -⟩ := cut_of_unacknowledged hmanifest hanswer hack
  exact ⟨offset, ho, hmiss⟩

/-- One pass is enough. -/
theorem ends_uploadMissing (hhex : ∀ bytes, isSha256Hex (P.sha256Hex bytes) = true)
    (hu : Undisturbed runnerId circumstances) (h : Spooled P runnerId key artifact initial w)
    (lease : ExecutionJobLease) (fuel : ℕ) :
    (ArtifactUploadPump.uploadMissing lease (manifestFor P key artifact) (fuel + 1) initial).Ends
      (UploadWorld.handler P circumstances) (Acknowledges key) w := by
  obtain ⟨hbounds, hcut⟩ := h.answer
  have hpending : ∀ offset ∈ cuts artifact.bytes.length artifactChunkSizeBytes,
      isMissing initial.missingRanges offset → chunkAt P key artifact.bytes offset ∈
        SqliteRunnerSpool.pendingArtifactChunks key.runId key.artifactId initial.missingRanges
          w.spool := by
    intro offset ho hmiss
    obtain ⟨hrow, hrun, hid⟩ := (h.chunks _).mpr (List.mem_map_of_mem ho)
    exact SqliteRunnerSpool.mem_pendingArtifactChunks.mpr ⟨hrow, hrun, hid, hmiss⟩
  have hfirst : UploadWorld.handler P circumstances (.pendingArtifactChunks key.runId
      key.artifactId initial.missingRanges) w =
      (.ok (SqliteRunnerSpool.pendingArtifactChunks key.runId key.artifactId
        initial.missingRanges w.spool), { w with draws := w.draws + 1 }) := by
    rw [handler_undisturbed hu]
    rfl
  refine Program.ends_step hfirst ?_
  split
  · next hempty =>
    rw [List.isEmpty_iff] at hempty
    cases hack : initial.acknowledged with
    | true => exact ⟨initial, rfl, hack, hbounds.verified hack⟩
    | false =>
      obtain ⟨offset, ho, hmiss⟩ := hcut hack
      have hmem := hpending offset ho hmiss
      rw [hempty] at hmem
      exact absurd hmem List.not_mem_nil
  · next hne =>
    rw [List.isEmpty_iff] at hne
    have ht : Transfer P runnerId key artifact { w with draws := w.draws + 1 } :=
      ⟨h.transfer.core, h.transfer.spool⟩
    refine Program.ends_bind
      (fun ack t => ack.acknowledged = true ∧ t.core.VerifiedAt key) ?_ ?_
    · refine (ends_uploadChunks lease hhex hu ht hne ?_ ?_).mono ?_
      · intro c hc
        obtain ⟨hrow, hrun, hid, -⟩ := SqliteRunnerSpool.mem_pendingArtifactChunks.mp hc
        exact (h.chunks c).mp ⟨hrow, hrun, hid⟩
      · intro offset ho hmiss
        have hrange := isMissing_iff.mpr (hbounds.missing offset hmiss)
        exact ⟨_, hpending offset ho hrange, rfl⟩
      · rintro r t ⟨ack, rfl, hack⟩
        exact hack
    · rintro ack t ⟨hack, hv⟩
      rw [if_pos hack]
      exact ⟨ack, rfl, hack, hv⟩

end Loop

/-- Without failures, the loop acknowledges an artifact whose chunks are spooled, whatever Core has
received of it; and in every run, with failures and restarts, a chunk that leaves the spool is not
reported missing for an artifact that is not acknowledged. -/
theorem uploads_progress (P : Platform)
    (hhex : ∀ bytes, isSha256Hex (P.sha256Hex bytes) = true) :
    (∀ (runnerId : String) (key : ArtifactKey) (artifact : RawCapturedArtifact)
      (initial : ArtifactUploadAck) (circumstances : ℕ → OpCircumstances) (w : UploadWorld)
      (lease : ExecutionJobLease) (fuel : ℕ), Undisturbed runnerId circumstances →
      Spooled P runnerId key artifact initial w →
      (ArtifactUploadPump.uploadMissing lease (manifestFor P key artifact) (fuel + 1)
        initial).Ends (UploadWorld.handler P circumstances) (Acknowledges key) w) ∧
    ∀ (scope : RunnerScope) (circumstances : ℕ → OpCircumstances) (events : List UploadEvent)
      (turns : List (Turn UploadRequest)) (turn : Turn UploadRequest),
      let before := (uploadsAfter P scope circumstances events turns).shared
      let after := (uploadsAfter P scope circumstances events (turns ++ [turn])).shared
      ∀ c ∈ before.spool.chunks.rows, c ∉ after.spool.chunks.rows →
        ¬ after.core.Missing c.toArtifactKey c.offset :=
  ⟨fun _ _ _ _ _ _ lease fuel hu h => ends_uploadMissing hhex hu h lease fuel,
    fun scope circumstances events turns turn _ hc hgone =>
      not_missing_of_step P scope circumstances events turns turn hc hgone⟩

/-- The digest of the one captured text, and a digest for everything else. -/
def digestPlatform : Platform where
  sha256Hex bytes :=
    if bytes = [116, 111, 107, 101, 110] then
      "3c469e9d6c5875d37a43f353d4f88e61fcf812c66eee3457465a40b0da4153e0"
    else "0000000000000000000000000000000000000000000000000000000000000000"
  sha256Base64url _ := ""
  newUrl _ := none
  bindText _ := none

theorem isSha256Hex_digestPlatform (bytes : List UInt8) :
    isSha256Hex (digestPlatform.sha256Hex bytes) = true := by
  unfold digestPlatform
  dsimp only
  split
  · decide
  · decide

def capturedKey : ArtifactKey := ⟨"tenant", "project", "run", "artifact"⟩

def capturedArtifact : RawCapturedArtifact := ⟨"dom", .json, [116, 111, 107, 101, 110]⟩

def capturedRegistration : UploadEvent where
  call := .registerManifest ⟨⟨"tenant", "project", "runner"⟩, "job", 1,
    manifestFor digestPlatform capturedKey capturedArtifact⟩
  outcome := .committed
  relativePath := "run/artifact"
  now := "2026-01-01T00:00:00.000Z"

/-- The artifact is spooled and registered, and nothing of it is received. -/
def capturedWorld : UploadWorld where
  spool :=
    { manifests := ⟨[⟨manifestFor digestPlatform capturedKey capturedArtifact,
        "2026-01-01T00:00:00.000Z"⟩], List.nodup_singleton _⟩
      chunks := ⟨[chunkAt digestPlatform capturedKey capturedArtifact.bytes 0],
        List.nodup_singleton _⟩
      progress := fun _ => none }
  core := UploadDb.after digestPlatform [capturedRegistration]
  draws := 0

def smoothly : OpCircumstances where
  others := []
  fault := .none
  runnerId := "runner"
  outcome := .committed
  relativePath := "run/artifact"
  now := "2026-01-01T00:00:01.000Z"
  limits := ⟨1000, 0⟩

theorem spooled_captured :
    Spooled digestPlatform "runner" capturedKey capturedArtifact
      ⟨"artifact", "run", [⟨0, 5⟩], false⟩ capturedWorld where
  manifest := ⟨_, List.mem_cons_self, rfl⟩
  chunks c := by
    change c ∈ [chunkAt digestPlatform capturedKey capturedArtifact.bytes 0] ∧ _ ∧ _ ↔
      c ∈ [chunkAt digestPlatform capturedKey capturedArtifact.bytes 0]
    constructor
    · exact fun h => h.1
    · intro h
      rw [List.mem_singleton.mp h]
      exact ⟨List.mem_cons_self, rfl, rfl⟩
  answered := ⟨[], capturedRegistration, [], rfl, rfl, by decide⟩
  registered := by decide
  received c hc := by
    have hnil : (InMemoryArtifactUploadStore.chunks capturedKey capturedWorld.core).map
        (·.offset) = [] := by decide
    rw [List.map_eq_nil_iff.mp hnil] at hc
    exact absurd hc List.not_mem_nil

/-- The one chunk is uploaded and the artifact acknowledged. -/
theorem uploads_progress_captured :
    (ArtifactUploadPump.uploadMissing ⟨"job", "run", "lease", 1, "2026-01-01T00:01:00.000Z"⟩
      (manifestFor digestPlatform capturedKey capturedArtifact) 1
      ⟨"artifact", "run", [⟨0, 5⟩], false⟩).Ends
      (UploadWorld.handler digestPlatform fun _ => smoothly) (Acknowledges capturedKey)
      capturedWorld :=
  (uploads_progress digestPlatform isSha256Hex_digestPlatform).1 "runner" capturedKey
    capturedArtifact _ _ _ _ 0 ⟨fun _ => rfl, fun _ => rfl, fun _ => rfl, fun _ => rfl⟩
    spooled_captured

end Qualigence.Runner
