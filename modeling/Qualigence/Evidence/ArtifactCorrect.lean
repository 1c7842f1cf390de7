import Qualigence.Evidence.ArtifactUpload
import Qualigence.Protocol.Messages

/-! # Uploaded artifacts are what their manifests say

In every state that registrations and uploads reach, the missing ranges of an artifact are
the complement of what was received, and a verified artifact is stored with the size and
the hash of its manifest. Every chunk that is stored covers one tile of its artifact, so
once no tile is missing the assembled bytes are the chunks one after another.
-/

namespace Qualigence.Evidence

open Foundation Protocol InMemoryArtifactUploadStore

/-! ## What is received and what is missing -/

/-- A range contains a position. -/
def ArtifactByteRange.Covers (r : ArtifactByteRange) (b : ℕ) : Prop :=
  r.offset ≤ b ∧ b < r.offset + r.length

/-- The positions of a chunk. -/
def ArtifactUploadChunkRecord.range (c : ArtifactUploadChunkRecord) : ArtifactByteRange :=
  ⟨c.offset, c.bytes.length⟩

/-- The missing ranges are sorted, disjoint and the complement of what was received. -/
structure MissingExact (sizeBytes : ℕ) (received : List ArtifactUploadChunkRecord)
    (missing : List ArtifactByteRange) : Prop where
  sorted : missing.Pairwise fun r s => r.offset + r.length ≤ s.offset
  complement : ∀ b, (∃ r ∈ missing, r.Covers b) ↔
    b < sizeBytes ∧ ¬ ∃ c ∈ received, c.range.Covers b

/-- The object store holds what the manifest describes, the received chunks by offset. -/
def Committed (P : Platform) (m : ArtifactUploadManifestRecord) (db : UploadDb) : Prop :=
  ∃ bytes, db.objects m.key = some bytes ∧ bytes.length = m.sizeBytes ∧
    P.sha256Hex bytes = m.sha256 ∧ bytes = (chunks m.key db).flatMap (·.bytes)

/-- A chunk covers the tile at its offset. -/
def TileOf (m : ArtifactUploadManifestRecord) (c : ArtifactUploadChunkRecord) : Prop :=
  artifactChunkSizeBytes ∣ c.offset ∧ c.offset < max 1 m.sizeBytes ∧
    c.bytes.length = tileLength m.sizeBytes artifactChunkSizeBytes c.offset

/-- The errors of the last step, when the assembled bytes are verified and stored. -/
def UploadError.late : UploadError → Bool
  | .service .artifactHashMismatch _ => true
  | .storage => true
  | _ => false

/-- An acknowledgement tells what the stores hold of the artifact. -/
def AckCorrect (P : Platform) (key : ArtifactKey) (ack : ArtifactUploadAck) (db : UploadDb) :
    Prop :=
  ∃ m ∈ db.manifests.rows, m.key = key ∧ ack.artifactId = m.artifactId ∧ ack.runId = m.runId ∧
    MissingExact m.sizeBytes (chunks m.key db) ack.missingRanges ∧
    (ack.acknowledged → m.status = .verified ∧ Committed P m db)

/-- What holds of the stores in every state. -/
structure UploadDb.Sound (P : Platform) (db : UploadDb) : Prop where
  chunkSize : ∀ m ∈ db.manifests.rows, m.chunkSizeBytes = artifactChunkSizeBytes
  tiles : ∀ c ∈ db.chunkRows.rows, ∃ m ∈ db.manifests.rows,
    m.key = c.toArtifactKey ∧ TileOf m c
  verified : ∀ m ∈ db.manifests.rows, m.status = .verified →
    missingRanges m.toArtifactUploadManifest (chunks m.key db) = [] ∧ Committed P m db

variable {P : Platform} {db : UploadDb} {m : ArtifactUploadManifestRecord}

theorem artifactChunkSizeBytes_pos : 0 < artifactChunkSizeBytes := by decide

theorem mem_chunks {key : ArtifactKey} {c : ArtifactUploadChunkRecord} :
    c ∈ chunks key db ↔ c ∈ db.chunkRows.rows ∧ c.toArtifactKey = key := by
  unfold chunks
  rw [List.mem_insertionSort, List.mem_filter, decide_eq_true_iff]

/-- The chunks of an artifact are sorted by offset. -/
theorem pairwise_chunks (key : ArtifactKey) : (chunks key db).Pairwise byOffset := by
  have : Std.Total byOffset := ⟨fun c d => Nat.le_total c.offset d.offset⟩
  have : IsTrans ArtifactUploadChunkRecord byOffset :=
    ⟨fun _ _ _ h h' => Nat.le_trans h h'⟩
  exact List.pairwise_insertionSort byOffset _

/-- No two chunks of an artifact have the same offset. -/
theorem nodup_chunks (key : ArtifactKey) : ((chunks key db).map (·.offset)).Nodup := by
  have hperm : (chunks key db).Perm (db.chunkRows.rows.filter fun c => c.toArtifactKey = key) :=
    List.perm_insertionSort byOffset _
  refine ((hperm.map (·.offset)).nodup_iff).mpr ?_
  refine List.Nodup.map_on ?_ (List.Nodup.of_map _ db.chunkRows.nodup |>.filter _)
  intro c hc d hd ho
  rw [List.mem_filter, decide_eq_true_iff] at hc hd
  have hk : c.key = d.key := by
    unfold ArtifactUploadChunkRecord.key
    rw [ho, hc.2, hd.2]
  exact List.inj_on_of_nodup_map db.chunkRows.nodup hc.1 hd.1 hk

namespace UploadDb.Sound

/-- The chunks of a registered artifact cover tiles of it. -/
theorem tile_of_mem (hs : db.Sound P) (hm : m ∈ db.manifests.rows)
    {c : ArtifactUploadChunkRecord} (hc : c ∈ chunks m.key db) : TileOf m c := by
  obtain ⟨hc, hk⟩ := mem_chunks.mp hc
  obtain ⟨m', hm', hk', ht⟩ := hs.tiles c hc
  have he := List.inj_on_of_nodup_map db.manifests.nodup hm' hm (hk'.trans hk)
  rwa [he] at ht

theorem missing_exact (hs : db.Sound P) (hm : m ∈ db.manifests.rows) :
    MissingExact m.sizeBytes (chunks m.key db)
      (missingRanges m.toArtifactUploadManifest (chunks m.key db)) := by
  have hsize := hs.chunkSize m hm
  unfold missingRanges
  rw [hsize]
  constructor
  · -- the ranges lie at cuts, which are a step apart
    refine List.pairwise_map.mpr (List.Pairwise.filter _ ?_)
    refine (pairwise_cutsFrom m.sizeBytes 0).imp ?_
    intro a b hab
    dsimp only
    omega
  · intro b
    constructor
    · rintro ⟨r, hr, hlo, hhi⟩
      obtain ⟨offset, hoff, rfl⟩ := List.mem_map.mp hr
      obtain ⟨hcut, hnot⟩ := List.mem_filter.mp hoff
      obtain ⟨hlt, hdvd⟩ := (mem_cuts artifactChunkSizeBytes_pos).mp hcut
      refine ⟨?_, ?_⟩
      · dsimp only at hhi hlo
        omega
      · rintro ⟨c, hc, hclo, hchi⟩
        obtain ⟨hcd, _, hcl⟩ := hs.tile_of_mem hm hc
        have h1 := cut_eq_of_mem hdvd hlo hhi
        have hchi' : b < c.offset + tileLength m.sizeBytes artifactChunkSizeBytes c.offset := by
          rw [← hcl]
          exact hchi
        have h2 := cut_eq_of_mem hcd hclo hchi'
        apply of_decide_eq_true hnot
        rw [h1, ← h2]
        exact List.mem_map_of_mem hc
    · rintro ⟨hb, hnone⟩
      have htile := mem_tile_of_lt artifactChunkSizeBytes_pos hb
      refine ⟨⟨b / artifactChunkSizeBytes * artifactChunkSizeBytes, _⟩,
        List.mem_map_of_mem (List.mem_filter.mpr ⟨?_, ?_⟩), htile⟩
      · exact (mem_cuts artifactChunkSizeBytes_pos).mpr
          ⟨Nat.lt_of_le_of_lt htile.1 hb, Nat.dvd_mul_left _ _⟩
      · refine decide_eq_true fun hmem => hnone ?_
        obtain ⟨c, hc, ho⟩ := List.mem_map.mp hmem
        obtain ⟨_, _, hcl⟩ := hs.tile_of_mem hm hc
        refine ⟨c, hc, ?_⟩
        unfold ArtifactUploadChunkRecord.range ArtifactByteRange.Covers
        dsimp only
        rw [hcl, ho]
        exact htile

/-- Without missing ranges there is a chunk at every cut, and no other. -/
theorem offsets_eq (hs : db.Sound P) (hm : m ∈ db.manifests.rows) (hpos : 0 < m.sizeBytes)
    (hmiss : missingRanges m.toArtifactUploadManifest (chunks m.key db) = []) :
    (chunks m.key db).map (·.offset) = cuts m.sizeBytes artifactChunkSizeBytes := by
  have hmem : ∀ n, n ∈ (chunks m.key db).map (·.offset) ↔
      n ∈ cuts m.sizeBytes artifactChunkSizeBytes := by
    intro n
    constructor
    · intro hn
      obtain ⟨c, hc, rfl⟩ := List.mem_map.mp hn
      obtain ⟨hd, hlt, _⟩ := hs.tile_of_mem hm hc
      exact (mem_cuts artifactChunkSizeBytes_pos).mpr ⟨by omega, hd⟩
    · intro hn
      unfold missingRanges at hmiss
      rw [List.map_eq_nil_iff, List.filter_eq_nil_iff, hs.chunkSize m hm] at hmiss
      by_contra hc
      exact hmiss n hn (decide_eq_true hc)
  have hcuts : (cuts m.sizeBytes artifactChunkSizeBytes).Pairwise (· < ·) := by
    refine (pairwise_cutsFrom m.sizeBytes 0).imp ?_
    intro a b hab
    have := artifactChunkSizeBytes_pos
    omega
  have hperm : ((chunks m.key db).map (·.offset)).Perm
      (cuts m.sizeBytes artifactChunkSizeBytes) :=
    (List.perm_ext_iff_of_nodup (nodup_chunks m.key) (hcuts.imp Nat.ne_of_lt)).mpr hmem
  have hsorted : ((chunks m.key db).map (·.offset)).Pairwise (· ≤ ·) :=
    List.pairwise_map.mpr (pairwise_chunks m.key)
  exact hperm.eq_of_pairwise (fun _ _ _ _ => Nat.le_antisymm) hsorted (hcuts.imp Nat.le_of_lt)

/-- Without missing ranges the chunks follow each other from the start to the end. -/
theorem tiling (hs : db.Sound P) (hm : m ∈ db.manifests.rows)
    (hmiss : missingRanges m.toArtifactUploadManifest (chunks m.key db) = []) :
    Tiling m.sizeBytes 0 ((chunks m.key db).map fun c => (c.offset, c.bytes)) := by
  have hlen : ∀ tile ∈ (chunks m.key db).map fun c => (c.offset, c.bytes),
      tile.2.length = tileLength m.sizeBytes artifactChunkSizeBytes tile.1 := by
    intro tile ht
    obtain ⟨c, hc, rfl⟩ := List.mem_map.mp ht
    exact (hs.tile_of_mem hm hc).2.2
  rcases Nat.eq_zero_or_pos m.sizeBytes with hz | hpos
  · -- an empty artifact has at most empty chunks at its start
    have hall : ∀ tile ∈ (chunks m.key db).map fun c => (c.offset, c.bytes),
        tile.1 = 0 ∧ tile.2.length = 0 := by
      intro tile ht
      obtain ⟨c, hc, rfl⟩ := List.mem_map.mp ht
      obtain ⟨_, hlt, hl⟩ := hs.tile_of_mem hm hc
      unfold tileLength at hl
      dsimp only
      omega
    rw [hz]
    exact tiling_zero hall
  · refine tiling_of_cuts artifactChunkSizeBytes_pos ?_ hlen
    rw [List.map_map]
    exact hs.offsets_eq hm hpos hmiss

/-- Without missing ranges the assembled bytes are the chunks one after another. -/
theorem assemble_eq (hs : db.Sound P) (hm : m ∈ db.manifests.rows)
    (hmiss : missingRanges m.toArtifactUploadManifest (chunks m.key db) = []) :
    ArtifactUploadService.assemble m.sizeBytes ((chunks m.key db).insertionSort byOffset) =
      some ((chunks m.key db).flatMap (·.bytes)) := by
  have ht := hs.tiling hm hmiss
  rw [(pairwise_chunks m.key).insertionSort_eq]
  unfold ArtifactUploadService.assemble
  have hin : ∀ c ∈ chunks m.key db, c.offset + c.bytes.length ≤ m.sizeBytes := by
    intro c hc
    obtain ⟨_, hlt, hl⟩ := hs.tile_of_mem hm hc
    unfold tileLength at hl
    omega
  have hfold := ht.foldl_overwrite (List.length_replicate (a := (0 : UInt8)))
  rw [List.foldl_map, List.flatMap_map, List.take_zero, List.nil_append] at hfold
  rw [if_pos hin, hfold]

/-- Rows with the same key are the same. -/
theorem eq_of_key {m' : ArtifactUploadManifestRecord} (hm : m ∈ db.manifests.rows)
    (hm' : m' ∈ db.manifests.rows) (hk : m'.key = m.key) : m' = m :=
  List.inj_on_of_nodup_map db.manifests.nodup hm' hm hk

/-- Writing the object of an artifact that is not verified keeps the stores sound. -/
theorem write (hs : db.Sound P) (hm : m ∈ db.manifests.rows) (hst : m.status ≠ .verified)
    (bytes : List UInt8) :
    UploadDb.Sound P { db with objects := Function.update db.objects m.key (some bytes) } := by
  refine ⟨hs.chunkSize, hs.tiles, ?_⟩
  intro m' hm' hv
  obtain ⟨hmiss, bytes', hobj, hrest⟩ := hs.verified m' hm' hv
  refine ⟨hmiss, bytes', ?_, hrest⟩
  have hne : m'.key ≠ m.key := by
    intro hk
    rw [eq_of_key hm hm' hk] at hv
    exact hst hv
  dsimp only
  rw [Function.update_of_ne hne]
  exact hobj

/-- Marking an artifact that is committed keeps the stores sound. -/
theorem markVerified (hs : db.Sound P) (hm : m ∈ db.manifests.rows)
    (hmiss : missingRanges m.toArtifactUploadManifest (chunks m.key db) = [])
    (hc : Committed P m db) (path : String) (now : Timestamp) :
    UploadDb.Sound P (InMemoryArtifactUploadStore.markVerified m.key path now db) ∧
      AckCorrect P m.key (ArtifactUploadService.complete m)
        (InMemoryArtifactUploadStore.markVerified m.key path now db) := by
  have hrow : ∀ m' ∈ db.manifests.rows, m'.key ≠ m.key ∨ m' = m := by
    intro m' hm'
    by_cases hk : m'.key = m.key
    · exact .inr (eq_of_key hm hm' hk)
    · exact .inl hk
  constructor
  · constructor
    · intro m' hm'
      obtain ⟨m₀, hm₀, rfl⟩ := List.mem_map.mp hm'
      split
      · exact hs.chunkSize m₀ hm₀
      · exact hs.chunkSize m₀ hm₀
    · intro c hcr
      obtain ⟨m₀, hm₀, hk, ht⟩ := hs.tiles c hcr
      refine ⟨_, List.mem_map_of_mem hm₀, ?_⟩
      split
      · exact ⟨hk, ht⟩
      · exact ⟨hk, ht⟩
    · intro m' hm' hv
      obtain ⟨m₀, hm₀, rfl⟩ := List.mem_map.mp hm'
      rcases hrow m₀ hm₀ with hne | rfl
      · rw [if_neg (by simpa using hne)] at hv ⊢
        exact hs.verified m₀ hm₀ hv
      · rw [if_pos (by simp)]
        exact ⟨hmiss, hc⟩
  · refine ⟨m.setVerified path now, ?_, rfl, rfl, rfl, ?_, fun _ => ⟨rfl, hc⟩⟩
    · refine List.mem_map.mpr ⟨m, hm, ?_⟩
      rw [if_pos (by simp)]
    · have he := hs.missing_exact hm
      rw [hmiss] at he
      exact he

/-- A verified artifact is acknowledged as what it is. -/
theorem ack_complete (hs : db.Sound P) (hm : m ∈ db.manifests.rows) (hv : m.status = .verified) :
    AckCorrect P m.key (ArtifactUploadService.complete m) db := by
  obtain ⟨hmiss, hc⟩ := hs.verified m hm hv
  have he := hs.missing_exact hm
  rw [hmiss] at he
  exact ⟨m, hm, rfl, rfl, rfl, he, fun _ => ⟨hv, hc⟩⟩

end UploadDb.Sound

/-! ## The calls of the service -/

section Calls

variable {outcome : CommitOutcome} {path : String} {now : Timestamp}

/-- What a call leaves: sound stores, and a correct acknowledgement or an error. -/
def Ends (P : Platform) (key : ArtifactKey) (raises : UploadError → UploadDb → Prop)
    (r : UploadResult) : Prop :=
  r.2.Sound P ∧ match r.1 with
    | .ok ack => AckCorrect P key ack r.2
    | .error err => raises err r.2

theorem ends_refuse {key : ArtifactKey} {raises : UploadError → UploadDb → Prop}
    {code : ArtifactUploadErrorCode} {message : String} (hs : db.Sound P)
    (h : raises (.service code message) db) :
    Ends P key raises (ArtifactUploadService.refuse code message db) := ⟨hs, h⟩

theorem Ends.imp {key : ArtifactKey} {raises raises' : UploadError → UploadDb → Prop}
    {r : UploadResult} (h : Ends P key raises r)
    (hi : ∀ err db', raises err db' → raises' err db') : Ends P key raises' r := by
  obtain ⟨res, db'⟩ := r
  refine ⟨h.1, ?_⟩
  cases res with
  | ok ack => exact h.2
  | error err => exact hi err db' h.2

/-- Progress only fails late, and it never touches the chunks. -/
theorem ends_progressFor (outcome : CommitOutcome) (path : String) (now : Timestamp)
    (hs : db.Sound P) (hm : m ∈ db.manifests.rows) :
    Ends P m.key (fun err db' => err.late ∧ db'.chunkRows = db.chunkRows)
      (ArtifactUploadService.progressFor P outcome path now m db) := by
  unfold ArtifactUploadService.progressFor
  split
  · next hv => exact ⟨hs, hs.ack_complete hm hv⟩
  next hst =>
  dsimp only
  split
  · exact ⟨hs, m, hm, rfl, rfl, rfl, hs.missing_exact hm, nofun⟩
  next hmiss =>
  rw [not_not] at hmiss
  unfold ArtifactUploadService.verifyAndCommit
  simp only [hs.assemble_eq hm hmiss]
  split
  · next he =>
    split at he
    · cases he
      exact ⟨hs, rfl, rfl⟩
    · cases outcome with
      | committed => cases he
      | writeFailed stored =>
        cases he
        refine ⟨?_, rfl, ?_⟩
        · cases stored
          · exact hs
          · exact hs.write hm hst _
        · cases stored <;> rfl
      | unverified =>
        cases he
        exact ⟨hs.write hm hst _, rfl, rfl⟩
      | noteFailed =>
        cases he
        exact ⟨hs.write hm hst _, rfl, rfl⟩
  · next he =>
    split at he
    · cases he
    · next hok =>
      rw [not_or, not_not, not_not] at hok
      cases outcome with
      | committed =>
        cases he
        exact (hs.write hm hst _).markVerified hm hmiss
          ⟨_, Function.update_self .., hok.1, hok.2, rfl⟩ path now
      | writeFailed stored => cases he
      | unverified => cases he
      | noteFailed => cases he

theorem validateManifest_chunkSize {manifest : ArtifactUploadManifest}
    (h : validateManifest manifest = true) : manifest.chunkSizeBytes = artifactChunkSizeBytes := by
  simp only [validateManifest, decide_eq_true_eq] at h
  obtain ⟨_, _, _, _, _, _, _, _, h, _⟩ := h
  exact h

theorem validateChunk_offset {chunk : ArtifactUploadChunk} (h : validateChunk P chunk = true) :
    artifactChunkSizeBytes ∣ chunk.offset := by
  simp only [validateChunk, decide_eq_true_eq] at h
  obtain ⟨_, _, _, _, _, _, h, _, _⟩ := h
  exact Nat.dvd_of_mod_eq_zero h

/-- Registering a valid manifest keeps the stores sound. -/
theorem sound_registerManifest {manifests : Table _ ArtifactUploadManifestRecord.key}
    (hs : db.Sound P) (hi : db.manifests.insert m = some manifests)
    (hsize : m.chunkSizeBytes = artifactChunkSizeBytes) (hst : m.status ≠ .verified) :
    UploadDb.Sound P { db with manifests } := by
  have hrows := Table.rows_of_insert hi
  constructor
  · intro m' hm'
    rw [hrows, List.mem_append, List.mem_singleton] at hm'
    rcases hm' with hm' | rfl
    · exact hs.chunkSize m' hm'
    · exact hsize
  · intro c hc
    obtain ⟨m', hm', h⟩ := hs.tiles c hc
    refine ⟨m', ?_, h⟩
    rw [hrows]
    exact List.mem_append_left _ hm'
  · intro m' hm' hv
    rw [hrows, List.mem_append, List.mem_singleton] at hm'
    rcases hm' with hm' | rfl
    · exact hs.verified m' hm' hv
    · exact absurd hv hst

/-- A rejected call leaves everything as it was, unless the assembled artifact fails; then
at most the chunk of the call is kept. -/
def Rejects (e : UploadEvent) (db : UploadDb) (err : UploadError) (db' : UploadDb) : Prop :=
  (err.late = false → db' = db) ∧
    (db'.chunkRows = db.chunkRows ∨ ∃ input, e.call = .uploadChunk input ∧
      db.chunkRows.insert (ArtifactUploadService.chunkRecord e.now input.chunk) =
        some db'.chunkRows)

theorem rejects_of_late {e : UploadEvent} {err : UploadError} {db' : UploadDb}
    (hl : err.late = true) (hc : db'.chunkRows = db.chunkRows) : Rejects e db err db' := by
  refine ⟨fun h => ?_, .inl hc⟩
  rw [hl] at h
  cases h

theorem ends_registerManifest {input : RegisterArtifactManifestInput} (hs : db.Sound P) :
    Ends P input.manifest.toArtifactKey
      (Rejects ⟨.registerManifest input, outcome, path, now⟩ db)
      (ArtifactUploadService.registerManifest P outcome path now input db) := by
  unfold ArtifactUploadService.registerManifest
  split
  · exact ends_refuse hs ⟨fun _ => rfl, .inl rfl⟩
  next hv =>
  rw [Bool.not_eq_true', Bool.not_eq_false] at hv
  split
  · exact ends_refuse hs ⟨fun _ => rfl, .inl rfl⟩
  cases hg : db.manifests.get
      (ArtifactUploadService.manifestRecord now input).key with
  | some existing =>
    simp only [InMemoryArtifactUploadStore.registerManifest, hg]
    by_cases hsame : sameManifest existing (ArtifactUploadService.manifestRecord now input)
    · simp only [hsame, if_true]
      have hprog := ends_progressFor outcome path now hs
        (Table.mem_of_get hg)
      rw [Table.key_of_get hg] at hprog
      exact hprog.imp fun err db' h => rejects_of_late h.1 h.2
    · simp only [hsame, if_false, Bool.false_eq_true]
      exact ends_refuse hs ⟨fun _ => rfl, .inl rfl⟩
  | none =>
    simp only [InMemoryArtifactUploadStore.registerManifest, hg]
    cases hi : db.manifests.insert (ArtifactUploadService.manifestRecord now input) with
    | none => exact ends_refuse hs ⟨fun _ => rfl, .inl rfl⟩
    | some manifests =>
      have hs' := sound_registerManifest hs hi (validateManifest_chunkSize hv) (fun h => by cases h)
      have hm : ArtifactUploadService.manifestRecord now input ∈ manifests.rows := by
        rw [Table.rows_of_insert hi]
        exact List.mem_append_right _ List.mem_cons_self
      have hprog := ends_progressFor outcome path now hs' hm
      exact hprog.imp fun err db' h => rejects_of_late h.1 h.2

/-- A stored chunk is among the chunks of its artifact only. -/
theorem chunks_of_insert {c : ArtifactUploadChunkRecord}
    {chunkRows : Table _ ArtifactUploadChunkRecord.key}
    (hi : db.chunkRows.insert c = some chunkRows) {key : ArtifactKey}
    (hne : key ≠ c.toArtifactKey) : chunks key { db with chunkRows } = chunks key db := by
  unfold chunks
  dsimp only
  rw [Table.rows_of_insert hi, List.filter_append, List.filter_singleton]
  simp [hne.symm]

/-- Storing a chunk that fits an artifact not yet verified keeps the stores sound. -/
theorem sound_appendChunk {c : ArtifactUploadChunkRecord}
    {chunkRows : Table _ ArtifactUploadChunkRecord.key} (hs : db.Sound P)
    (hi : db.chunkRows.insert c = some chunkRows) (hm : m ∈ db.manifests.rows)
    (hk : m.key = c.toArtifactKey) (hst : m.status ≠ .verified) (ht : TileOf m c) :
    UploadDb.Sound P { db with chunkRows } := by
  refine ⟨hs.chunkSize, ?_, ?_⟩
  · intro c' hc'
    dsimp only at hc'
    rw [Table.rows_of_insert hi, List.mem_append, List.mem_singleton] at hc'
    rcases hc' with hc' | rfl
    · exact hs.tiles c' hc'
    · exact ⟨m, hm, hk, ht⟩
  · intro m' hm' hv
    have hne : m'.key ≠ c.toArtifactKey := by
      intro hk'
      rw [UploadDb.Sound.eq_of_key hm hm' (hk'.trans hk.symm)] at hv
      exact hst hv
    unfold Committed
    rw [chunks_of_insert hi hne]
    exact hs.verified m' hm' hv

theorem tileOf_chunkRecord {chunk : ArtifactUploadChunk} (hs : db.Sound P)
    (hm : m ∈ db.manifests.rows) (hv : validateChunk P chunk = true)
    (hf : ArtifactUploadService.chunkFits chunk m = true) :
    TileOf m (ArtifactUploadService.chunkRecord now chunk) := by
  simp only [ArtifactUploadService.chunkFits, hs.chunkSize m hm, decide_eq_true_eq] at hf
  exact ⟨validateChunk_offset hv, hf⟩

theorem ends_uploadChunk {input : UploadArtifactChunkInput} (hs : db.Sound P) :
    Ends P input.chunk.toArtifactKey (Rejects ⟨.uploadChunk input, outcome, path, now⟩ db)
      (ArtifactUploadService.uploadChunk P outcome path now input db) := by
  unfold ArtifactUploadService.uploadChunk
  split
  · exact ends_refuse hs ⟨fun _ => rfl, .inl rfl⟩
  next hv =>
  rw [Bool.not_eq_true', Bool.not_eq_false] at hv
  split
  · exact ends_refuse hs ⟨fun _ => rfl, .inl rfl⟩
  split
  · exact ends_refuse hs ⟨fun _ => rfl, .inl rfl⟩
  next m hg =>
  have hm : m ∈ db.manifests.rows := Table.mem_of_get hg
  have hk : m.key = input.chunk.toArtifactKey := Table.key_of_get hg
  split
  · exact ends_refuse hs ⟨fun _ => rfl, .inl rfl⟩
  split
  · exact ends_refuse hs ⟨fun _ => rfl, .inl rfl⟩
  split
  · exact ends_refuse hs ⟨fun _ => rfl, .inl rfl⟩
  next hf =>
  rw [Bool.not_eq_true', Bool.not_eq_false] at hf
  split
  · next hver =>
    have hack := hs.ack_complete hm hver
    rw [hk] at hack
    exact ⟨hs, hack⟩
  next hst =>
  -- the chunk is stored or was there before; a conflict leaves the row that is there
  cases hc : db.chunkRows.get (ArtifactUploadService.chunkRecord now input.chunk).key with
  | some existing =>
    simp only [appendChunk, hc]
    have hprog := ends_progressFor outcome path now hs hm
    rw [hk] at hprog
    split
    · next he =>
      split at he
      · cases he
      · cases he
        exact ends_refuse hs ⟨fun _ => rfl, .inl rfl⟩
    · next he =>
      split at he
      · cases he
        exact hprog.imp fun err db' h => rejects_of_late h.1 h.2
      · cases he
        exact hprog.imp fun err db' h => rejects_of_late h.1 h.2
  | none =>
    simp only [appendChunk, hc]
    cases hi : db.chunkRows.insert (ArtifactUploadService.chunkRecord now input.chunk) with
    | none => exact ends_refuse hs ⟨fun _ => rfl, .inl rfl⟩
    | some chunkRows =>
      have hs' := sound_appendChunk hs hi hm hk hst (tileOf_chunkRecord hs hm hv hf)
      have hprog := ends_progressFor outcome path now hs' hm
      rw [hk] at hprog
      refine hprog.imp fun err db' h => ⟨fun hl => ?_, .inr ⟨input, rfl, ?_⟩⟩
      · rw [h.1] at hl
        cases hl
      · rw [h.2]
        exact hi

end Calls

/-! ## Histories -/

theorem sound_empty : UploadDb.empty.Sound P := ⟨nofun, nofun, nofun⟩

/-- The artifact of a call. -/
def UploadCall.key : UploadCall → ArtifactKey
  | .registerManifest input => input.manifest.toArtifactKey
  | .uploadChunk input => input.chunk.toArtifactKey

theorem ends_run (hs : db.Sound P) (e : UploadEvent) :
    Ends P e.call.key (Rejects e db) (e.run P db) := by
  obtain ⟨call, outcome, path, now⟩ := e
  cases call with
  | registerManifest input => exact ends_registerManifest hs
  | uploadChunk input => exact ends_uploadChunk hs

theorem sound_after (P : Platform) (events : List UploadEvent) :
    (UploadDb.after P events).Sound P := by
  unfold UploadDb.after
  refine List.foldlRecOn events _ sound_empty ?_
  intro db hs e _
  exact (ends_run hs e).1

/-- In every state that calls reach, the missing ranges of an artifact are exactly what was
not received, a verified artifact is stored as its manifest says, and the next call answers
accordingly. A call that is rejected before the assembled artifact is checked changes
nothing; one whose artifact fails at the end keeps at most its own chunk. -/
theorem uploads_correct (P : Platform) (events : List UploadEvent) (e : UploadEvent) :
    let db := UploadDb.after P events
    (∀ m ∈ db.manifests.rows, MissingExact m.sizeBytes (chunks m.key db)
      (missingRanges m.toArtifactUploadManifest (chunks m.key db))) ∧
    (∀ m ∈ db.manifests.rows, m.status = .verified → Committed P m db) ∧
    match e.run P db with
    | (.ok ack, db') => AckCorrect P e.call.key ack db'
    | (.error err, db') => Rejects e db err db' := by
  have hs := sound_after P events
  refine ⟨fun m hm => hs.missing_exact hm, fun m hm hv => (hs.verified m hm hv).2, ?_⟩
  have h := (ends_run hs e).2
  generalize e.run P (UploadDb.after P events) = r at h
  obtain ⟨res, db'⟩ := r
  cases res with
  | ok ack => exact h
  | error err => exact h

/-- A manifest of five bytes. -/
def sampleManifest (sha256 : String) : ArtifactUploadManifest where
  tenantId := "tenant"
  projectId := "project"
  runId := "run"
  artifactId := "artifact"
  sizeBytes := 5
  sha256 := sha256
  mediaType := "text/plain"
  sensitivity := "internal"
  chunkSizeBytes := artifactChunkSizeBytes
  totalChunks := 1

def sampleRegistration (sha256 : String) : UploadEvent where
  call := .registerManifest ⟨⟨"tenant", "project", "runner"⟩, "job", 1, sampleManifest sha256⟩
  outcome := .committed
  relativePath := "run/artifact"
  now := "2026-01-01T00:00:00.000Z"

/-- The upload of the one chunk, with its own hash. -/
def sampleUpload : UploadEvent where
  call := .uploadChunk ⟨(sampleManifest "").toArtifactKey, "runner",
    ⟨(sampleManifest "").toArtifactKey, 0, utf8Encode "token".toList,
      "3c469e9d6c5875d37a43f353d4f88e61fcf812c66eee3457465a40b0da4153e0"⟩⟩
  outcome := .committed
  relativePath := "run/artifact"
  now := "2026-01-01T00:00:01.000Z"

/-- A chunk that completes an artifact whose manifest carries another hash is rejected and
stays among the received ones. -/
theorem rejected_upload_keeps_chunk :
    let sha256 := "0000000000000000000000000000000000000000000000000000000000000000"
    let db := UploadDb.after samplePlatform [sampleRegistration sha256]
    let r := sampleUpload.run samplePlatform db
    let key := (sampleManifest sha256).toArtifactKey
    r.1 = .error (.service .artifactHashMismatch
        "artifact artifact failed final hash verification") ∧
      (chunks key db).map (·.range) = [] ∧ (chunks key r.2).map (·.range) = [⟨0, 5⟩] := by
  decide

end Qualigence.Evidence
