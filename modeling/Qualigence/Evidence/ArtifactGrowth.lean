import Qualigence.Evidence.ArtifactCorrect

/-! # What Core received stays

No call removes a manifest or a chunk, or takes back that an artifact is verified, and a manifest
that is new was validated. So what is missing of an artifact shrinks, and an answer stays an upper
bound of what is missing later.
-/

namespace Qualigence.Evidence

open Foundation Protocol InMemoryArtifactUploadStore

structure UploadDb.Grows (db db' : UploadDb) : Prop where
  manifests : ∀ m ∈ db.manifests.rows, ∃ m' ∈ db'.manifests.rows,
    m'.toArtifactUploadManifest = m.toArtifactUploadManifest ∧
      m'.registeredByRunnerId = m.registeredByRunnerId ∧
      (m.status = .verified → m'.status = .verified)
  chunkRows : ∀ c ∈ db.chunkRows.rows, c ∈ db'.chunkRows.rows
  valid : ∀ m' ∈ db'.manifests.rows, validateManifest m'.toArtifactUploadManifest = true ∨
    ∃ m ∈ db.manifests.rows, m.toArtifactUploadManifest = m'.toArtifactUploadManifest

variable {P : Platform} {db db' db'' : UploadDb} {m : ArtifactUploadManifestRecord}
  {outcome : CommitOutcome} {path : String} {now : Timestamp}

namespace UploadDb.Grows

theorem refl (db : UploadDb) : db.Grows db :=
  ⟨fun m hm => ⟨m, hm, rfl, rfl, id⟩, fun _ h => h, fun m hm => .inr ⟨m, hm, rfl⟩⟩

theorem trans (h : db.Grows db') (h' : db'.Grows db'') : db.Grows db'' := by
  constructor
  · intro m hm
    obtain ⟨m', hm', he, hr, hv⟩ := h.manifests m hm
    obtain ⟨m'', hm'', he', hr', hv'⟩ := h'.manifests m' hm'
    exact ⟨m'', hm'', he'.trans he, hr'.trans hr, hv' ∘ hv⟩
  · intro c hc
    exact h'.chunkRows c (h.chunkRows c hc)
  · intro m'' hm''
    rcases h'.valid m'' hm'' with hv | ⟨m', hm', he'⟩
    · exact .inl hv
    · rw [← he']
      exact h.valid m' hm'

/-- The objects do not matter. -/
theorem of_tables (hm : db'.manifests = db.manifests) (hc : db'.chunkRows = db.chunkRows) :
    db.Grows db' := by
  refine ⟨fun m h => ⟨m, ?_, rfl, rfl, id⟩, fun c h => ?_, fun m h => .inr ⟨m, ?_, rfl⟩⟩
  · rw [hm]
    exact h
  · rw [hc]
    exact h
  · rwa [hm] at h

end UploadDb.Grows

/-! ## One call -/

theorem grows_markVerified (key : ArtifactKey) : db.Grows (markVerified key path now db) := by
  refine ⟨fun m hm => ⟨_, List.mem_map_of_mem hm, ?_, ?_, ?_⟩, fun _ h => h, fun m' hm' => ?_⟩
  · dsimp only
    split
    · rfl
    · rfl
  · dsimp only
    split
    · rfl
    · rfl
  · intro hv
    dsimp only
    split
    · rfl
    · exact hv
  · obtain ⟨m, hm, rfl⟩ := List.mem_map.mp hm'
    refine .inr ⟨m, hm, ?_⟩
    split
    · rfl
    · rfl

theorem grows_verifyAndCommit (chunks : List ArtifactUploadChunkRecord) :
    db.Grows (ArtifactUploadService.verifyAndCommit P outcome path now m chunks db).2 := by
  unfold ArtifactUploadService.verifyAndCommit
  dsimp only
  split
  · exact .refl db
  next bytes _ =>
  split
  · exact .refl db
  have hw : db.Grows { db with objects := Function.update db.objects m.key (some bytes) } :=
    .of_tables rfl rfl
  cases outcome with
  | committed => exact hw.trans (grows_markVerified m.key)
  | writeFailed stored => cases stored <;> exact .of_tables rfl rfl
  | unverified => exact .of_tables rfl rfl
  | noteFailed => exact .of_tables rfl rfl

theorem grows_progressFor :
    db.Grows (ArtifactUploadService.progressFor P outcome path now m db).2 := by
  unfold ArtifactUploadService.progressFor
  split
  · exact .refl db
  dsimp only
  split
  · exact .refl db
  have h : db.Grows (ArtifactUploadService.verifyAndCommit P outcome path now m (chunks m.key db)
      db).2 := grows_verifyAndCommit (chunks m.key db)
  split
  · next he =>
    rw [he] at h
    exact h
  · next he =>
    rw [he] at h
    exact h

theorem grows_storeManifest {manifest : ArtifactUploadManifestRecord}
    (hv : validateManifest manifest.toArtifactUploadManifest = true) :
    db.Grows (InMemoryArtifactUploadStore.registerManifest manifest db).2 := by
  unfold InMemoryArtifactUploadStore.registerManifest
  split
  · split <;> exact .refl db
  split
  · next hi =>
    refine ⟨fun m hm => ⟨m, ?_, rfl, rfl, id⟩, fun _ h => h, fun m hm => ?_⟩
    · rw [Table.rows_of_insert hi]
      exact List.mem_append_left _ hm
    · dsimp only at hm
      rw [Table.rows_of_insert hi] at hm
      rcases List.mem_append.mp hm with hm | hm
      · exact .inr ⟨m, hm, rfl⟩
      · rw [List.mem_singleton.mp hm]
        exact .inl hv
  · exact .refl db

theorem grows_appendChunk (chunk : ArtifactUploadChunkRecord) :
    db.Grows (appendChunk chunk db).2 := by
  unfold appendChunk
  split
  · split <;> exact .refl db
  split
  · next hi =>
    refine ⟨fun m hm => ⟨m, hm, rfl, rfl, id⟩, fun c hc => ?_, fun m hm => .inr ⟨m, hm, rfl⟩⟩
    rw [Table.rows_of_insert hi]
    exact List.mem_append_left _ hc
  · exact .refl db

theorem grows_registerManifest (input : RegisterArtifactManifestInput) :
    db.Grows (ArtifactUploadService.registerManifest P outcome path now input db).2 := by
  unfold ArtifactUploadService.registerManifest
  split
  · exact .refl db
  next hv =>
  rw [Bool.not_eq_true', Bool.not_eq_false] at hv
  split
  · exact .refl db
  have h : db.Grows (InMemoryArtifactUploadStore.registerManifest
      (ArtifactUploadService.manifestRecord now input) db).2 := grows_storeManifest hv
  split
  all_goals
    next he =>
    rw [he] at h
    first
    | exact h
    | exact h.trans grows_progressFor

theorem grows_uploadChunk (input : UploadArtifactChunkInput) :
    db.Grows (ArtifactUploadService.uploadChunk P outcome path now input db).2 := by
  unfold ArtifactUploadService.uploadChunk
  split
  · exact .refl db
  split
  · exact .refl db
  split
  · exact .refl db
  next m _ =>
  split
  · exact .refl db
  split
  · exact .refl db
  split
  · exact .refl db
  split
  · exact .refl db
  have h : db.Grows (appendChunk (ArtifactUploadService.chunkRecord now input.chunk) db).2 :=
    grows_appendChunk (ArtifactUploadService.chunkRecord now input.chunk)
  split
  · next he =>
    rw [he] at h
    exact h
  · next he =>
    rw [he] at h
    exact h.trans grows_progressFor

theorem grows_run (e : UploadEvent) (db : UploadDb) : db.Grows (e.run P db).2 := by
  obtain ⟨call, outcome, path, now⟩ := e
  cases call with
  | registerManifest input => exact grows_registerManifest input
  | uploadChunk input => exact grows_uploadChunk input

/-! ## Many calls -/

/-- The stores after the calls of a sequence. -/
def UploadDb.serve (P : Platform) (events : List UploadEvent) (db : UploadDb) : UploadDb :=
  events.foldl (fun db e => (e.run P db).2) db

theorem grows_serve (events : List UploadEvent) (db : UploadDb) :
    db.Grows (db.serve P events) := by
  induction events generalizing db with
  | nil => exact .refl db
  | cons e events ih => exact (grows_run e db).trans (ih _)

/-- Every manifest that Core has was validated. -/
theorem validated_after (events : List UploadEvent) :
    ∀ m ∈ (UploadDb.after P events).manifests.rows,
      validateManifest m.toArtifactUploadManifest = true := by
  intro m hm
  rcases (grows_serve events .empty).valid m hm with hv | ⟨m', hm', -⟩
  · exact hv
  · exact absurd hm' List.not_mem_nil

theorem sound_serve {events : List UploadEvent} (hs : db.Sound P) :
    (db.serve P events).Sound P := by
  induction events generalizing db with
  | nil => exact hs
  | cons e events ih => exact ih (ends_run hs e).1

/-! ## What is missing -/

/-- A position that Core reports missing for an artifact that it has not verified. -/
def UploadDb.Missing (key : ArtifactKey) (b : ℕ) (db : UploadDb) : Prop :=
  ∃ m ∈ db.manifests.rows, m.key = key ∧ m.status ≠ .verified ∧
    ∃ r ∈ missingRanges m.toArtifactUploadManifest (chunks key db), r.Covers b

/-- Core has verified the artifact. -/
def UploadDb.VerifiedAt (key : ArtifactKey) (db : UploadDb) : Prop :=
  ∃ m ∈ db.manifests.rows, m.key = key ∧ m.status = .verified

theorem UploadDb.VerifiedAt.not_missing {key : ArtifactKey} {b : ℕ} (h : db.VerifiedAt key) :
    ¬ db.Missing key b := by
  rintro ⟨m, hm, hk, hst, -⟩
  obtain ⟨m', hm', hk', hv⟩ := h
  rw [UploadDb.Sound.eq_of_key hm hm' (hk'.trans hk.symm)] at hv
  exact hst hv

/-- What is received is not missing. -/
theorem not_missing_of_mem (hs : db.Sound P) {key : ArtifactKey} {c : ArtifactUploadChunkRecord}
    (hc : c ∈ chunks key db) : ¬ db.Missing key c.offset := by
  rintro ⟨m, hm, rfl, -, hcover⟩
  obtain ⟨hlt, hnone⟩ := ((hs.missing_exact hm).complement c.offset).mp hcover
  obtain ⟨-, -, hlen⟩ := hs.tile_of_mem hm hc
  have hpos := artifactChunkSizeBytes_pos
  refine hnone ⟨c, hc, le_rfl, ?_⟩
  unfold ArtifactUploadChunkRecord.range tileLength at *
  dsimp only
  omega

theorem UploadDb.Grows.verifiedAt (h : db.Grows db') {key : ArtifactKey}
    (hv : db.VerifiedAt key) : db'.VerifiedAt key := by
  obtain ⟨m, hm, hk, hst⟩ := hv
  obtain ⟨m', hm', he, -, hst'⟩ := h.manifests m hm
  refine ⟨m', hm', ?_, hst' hst⟩
  rw [← hk]
  exact congrArg (·.toArtifactKey) he

/-- An answer bounds what is missing from then on. -/
structure Bounds (key : ArtifactKey) (ack : ArtifactUploadAck) (db : UploadDb) : Prop where
  registered : ∃ m ∈ db.manifests.rows, m.key = key
  verified : ack.acknowledged → db.VerifiedAt key
  missing : ∀ b, db.Missing key b → ∃ r ∈ ack.missingRanges, r.Covers b

theorem UploadDb.Grows.missing (h : db.Grows db') {key : ArtifactKey}
    (hreg : ∃ m ∈ db.manifests.rows, m.key = key) {b : ℕ} (hmiss : db'.Missing key b) :
    db.Missing key b := by
  obtain ⟨m', hm', hk', hst', r, hr, hb⟩ := hmiss
  obtain ⟨m, hm, hk⟩ := hreg
  obtain ⟨m₁, hm₁, he, -, hst⟩ := h.manifests m hm
  -- the manifest is the one that was registered
  have hk₁ : m₁.key = m'.key := by
    rw [hk', ← hk]
    exact congrArg (·.toArtifactKey) he
  cases UploadDb.Sound.eq_of_key hm' hm₁ hk₁
  refine ⟨m, hm, hk, fun hv => hst' (hst hv), r, ?_, hb⟩
  rw [he] at hr
  obtain ⟨offset, ho, rfl⟩ := List.mem_map.mp hr
  obtain ⟨hcut, hnot⟩ := List.mem_filter.mp ho
  refine List.mem_map_of_mem (List.mem_filter.mpr ⟨hcut, decide_eq_true fun hmem => ?_⟩)
  apply of_decide_eq_true hnot
  obtain ⟨c, hc, rfl⟩ := List.mem_map.mp hmem
  obtain ⟨hcr, hck⟩ := mem_chunks.mp hc
  exact List.mem_map_of_mem (mem_chunks.mpr ⟨h.chunkRows c hcr, hck⟩)

theorem Bounds.later {key : ArtifactKey} {ack : ArtifactUploadAck} (hb : Bounds key ack db)
    (h : db.Grows db') : Bounds key ack db' := by
  refine ⟨?_, fun ha => h.verifiedAt (hb.verified ha), fun b hm =>
    hb.missing b (h.missing hb.registered hm)⟩
  obtain ⟨m, hm, hk⟩ := hb.registered
  obtain ⟨m', hm', he, -⟩ := h.manifests m hm
  exact ⟨m', hm', (congrArg (·.toArtifactKey) he).trans hk⟩

theorem bounds_of_ackCorrect {key : ArtifactKey} {ack : ArtifactUploadAck} (hs : db.Sound P)
    (h : AckCorrect P key ack db) : Bounds key ack db := by
  obtain ⟨m, hm, hk, -, -, hexact, hack⟩ := h
  refine ⟨⟨m, hm, hk⟩, fun ha => ⟨m, hm, hk, (hack ha).1⟩, ?_⟩
  rintro b ⟨m', hm', hk', -, hcover⟩
  cases UploadDb.Sound.eq_of_key hm hm' (hk'.trans hk.symm)
  rw [← hk] at hcover
  exact (hexact.complement b).mpr (((hs.missing_exact hm).complement b).mp hcover)

/-- What a call answers bounds what is missing after it, and names its artifact. -/
theorem bounds_run (hs : db.Sound P) (e : UploadEvent) {ack : ArtifactUploadAck}
    (h : (e.run P db).1 = .ok ack) :
    Bounds e.call.key ack (e.run P db).2 ∧ ack.runId = e.call.key.runId ∧
      ack.artifactId = e.call.key.artifactId := by
  obtain ⟨hs', hack⟩ := ends_run hs e
  rw [h] at hack
  refine ⟨bounds_of_ackCorrect hs' hack, ?_⟩
  obtain ⟨m, -, hk, hid, hrun, -⟩ := hack
  rw [← hk]
  exact ⟨hrun, hid⟩

/-! ## Answers that do not acknowledge -/

/-- An answer that does not acknowledge reports what is missing of an artifact not verified, and
there is something. -/
def Reports (key : ArtifactKey) (r : UploadResult) : Prop :=
  ∀ ack, r.1 = .ok ack → ack.acknowledged = false → ∃ m ∈ r.2.manifests.rows, m.key = key ∧
    m.status ≠ .verified ∧ ack.missingRanges ≠ [] ∧
    ack.missingRanges = missingRanges m.toArtifactUploadManifest (chunks key r.2)

theorem reports_progressFor {key : ArtifactKey} (hm : m ∈ db.manifests.rows) (hk : m.key = key) :
    Reports key (ArtifactUploadService.progressFor P outcome path now m db) := by
  subst hk
  unfold ArtifactUploadService.progressFor
  split
  · rintro _ ⟨⟩ ⟨⟩
  next hst =>
  dsimp only
  split
  · next hmiss =>
    rintro _ ⟨⟩ -
    exact ⟨m, hm, rfl, hst, hmiss, rfl⟩
  split
  · rintro _ ⟨⟩
  · rintro _ ⟨⟩ ⟨⟩

theorem reports_run (e : UploadEvent) (db : UploadDb) : Reports e.call.key (e.run P db) := by
  obtain ⟨call, outcome, path, now⟩ := e
  cases call with
  | registerManifest input =>
    change Reports _ (ArtifactUploadService.registerManifest P outcome path now input db)
    unfold ArtifactUploadService.registerManifest
    split
    · rintro _ ⟨⟩
    split
    · rintro _ ⟨⟩
    -- the manifest is stored, or was
    have hmem : ∀ m db', (InMemoryArtifactUploadStore.registerManifest
          (ArtifactUploadService.manifestRecord now input) db = (.accepted m, db') ∨
        InMemoryArtifactUploadStore.registerManifest
          (ArtifactUploadService.manifestRecord now input) db = (.duplicate m, db')) →
        m ∈ db'.manifests.rows ∧ m.key = input.manifest.toArtifactKey := by
      intro m db' h
      unfold InMemoryArtifactUploadStore.registerManifest at h
      split at h
      · next existing hg =>
        split at h
        · rcases h with h | h
          · cases h
          · cases h
            exact ⟨Table.mem_of_get hg, Table.key_of_get hg⟩
        · rcases h with h | h <;> cases h
      · split at h
        · next manifests hins =>
          rcases h with h | h
          · cases h
            refine ⟨?_, rfl⟩
            dsimp only
            rw [Table.rows_of_insert hins]
            exact List.mem_append_right _ List.mem_cons_self
          · cases h
        · rcases h with h | h <;> cases h
    split
    · rintro _ ⟨⟩
    · next m db' he =>
      obtain ⟨hm, hk⟩ := hmem m db' (.inl he)
      exact reports_progressFor hm hk
    · next m db' he =>
      obtain ⟨hm, hk⟩ := hmem m db' (.inr he)
      exact reports_progressFor hm hk
  | uploadChunk input =>
    change Reports _ (ArtifactUploadService.uploadChunk P outcome path now input db)
    unfold ArtifactUploadService.uploadChunk
    split
    · rintro _ ⟨⟩
    split
    · rintro _ ⟨⟩
    split
    · rintro _ ⟨⟩
    next m hg =>
    have hk : m.key = input.chunk.toArtifactKey := Table.key_of_get hg
    split
    · rintro _ ⟨⟩
    split
    · rintro _ ⟨⟩
    split
    · rintro _ ⟨⟩
    split
    · rintro _ ⟨⟩ ⟨⟩
    split
    · rintro _ ⟨⟩
    · next he =>
      have hm : (appendChunk (ArtifactUploadService.chunkRecord now input.chunk) db).2.manifests =
          db.manifests := by
        unfold appendChunk
        split
        · split <;> rfl
        · split <;> rfl
      rw [he] at hm
      refine reports_progressFor ?_ hk
      rw [hm]
      exact Table.mem_of_get hg

end Qualigence.Evidence
