import Qualigence.Skill.Reachable

/-! # What a deprecation revokes

The views of the versions of a skill, and what they report after a deprecation: the new version is
revoked, and every other version with its content keeps the status that it had.
-/

namespace Qualigence.Skill

open Foundation Protocol

/-! ## The views -/

inductive SignatureStatus where
  | valid
  | invalid
  | revoked
  deriving DecidableEq

/-- The outcome of the latest evaluation, or that there is none. -/
inductive EvaluationStatus where
  | pending
  | evaluated (outcome : Verdict)
  deriving DecidableEq

structure SkillVersionView where
  skillId : String
  version : ℕ
  state : SkillState
  contentSha256 : String
  signatureStatus : SignatureStatus
  evaluationStatus : EvaluationStatus
  deriving DecidableEq

namespace SkillDb

variable (db : SkillDb)

def isRevoked (skillId : String) (version : ℕ) : Bool := (db.revocationOf skillId version).isSome

def latestEvaluation (skillId : String) (version : ℕ) : Option SkillEvaluation :=
  (db.evaluationsOf skillId version).getLast?

/-- The bundle of a version was issued for its content. -/
def hasBundle (version : ProcedureSkillVersion) : Bool :=
  bundleMatchesVersion (db.bundles.get (version.skillId, version.version)) version

def isSignedEvaluated (candidate : ProcedureSkillVersion) : Bool :=
  (db.latestEvaluation candidate.skillId candidate.version).any (·.signatureValid) &&
    db.hasBundle candidate

/-- The last version at or before the given one that was signed and evaluated with its content. -/
def signedEvaluatedVersion (version : ProcedureSkillVersion) : Option ProcedureSkillVersion :=
  (db.versionsOf version.skillId).reverse.find? fun candidate =>
    !(decide (version.version < candidate.version) ||
      decide (candidate.contentSha256 ≠ version.contentSha256)) && db.isSignedEvaluated candidate

def versionView (version : ProcedureSkillVersion) : SkillVersionView :=
  let signedVersion := db.signedEvaluatedVersion version
  let latestEvaluation := signedVersion.bind fun v => db.latestEvaluation version.skillId v.version
  let bundle := signedVersion.bind fun v => db.bundles.get (version.skillId, v.version)
  { skillId := version.skillId
    version := version.version
    state := version.state
    contentSha256 := version.contentSha256
    signatureStatus :=
      if db.isRevoked version.skillId version.version then .revoked
      else if (signedVersion.any fun v => bundleMatchesVersion bundle v) &&
          latestEvaluation.any (·.signatureValid) then .valid
      else .invalid
    evaluationStatus := match latestEvaluation with
      | none => .pending
      | some evaluation => .evaluated evaluation.outcome }

def versionViews (skillId : String) : List SkillVersionView :=
  (db.versionsOf skillId).map db.versionView

end SkillDb

/-! ## Revoked content -/

/-- No version with the content is reported as valid, and every one that has a bundle for it is
revoked. -/
structure ContentRevoked (db : SkillDb) (skillId contentSha256 : String) : Prop where
  views : ∀ view ∈ db.versionViews skillId, view.contentSha256 = contentSha256 →
    view.signatureStatus ≠ .valid
  bundles : ∀ v ∈ db.versionsOf skillId, v.contentSha256 = contentSha256 → db.hasBundle v →
    db.isRevoked skillId v.version

/-- Every version with the content is revoked, unless neither it has a bundle for the content nor
was the content signed and evaluated at or before it. -/
def AlreadyRevoked (db : SkillDb) (skillId contentSha256 : String) : Prop :=
  ∀ v ∈ db.versionsOf skillId, v.contentSha256 = contentSha256 →
    (db.hasBundle v ∨ ∃ c ∈ db.versionsOf skillId, c.version ≤ v.version ∧
      c.contentSha256 = contentSha256 ∧ db.isSignedEvaluated c) →
    db.isRevoked skillId v.version

section Views

variable {db : SkillDb}

theorem mem_versionsOf {skillId : String} {v : ProcedureSkillVersion} :
    v ∈ db.versionsOf skillId ↔ db.versions.get (skillId, v.version) = some v := by
  rw [SkillDb.versionsOf, List.mem_insertionSort, List.mem_filter, Table.get_eq_some_iff]
  simp

theorem skillId_of_mem {skillId : String} {v : ProcedureSkillVersion}
    (h : v ∈ db.versionsOf skillId) : v.skillId = skillId :=
  congrArg Prod.fst (Table.key_of_get (mem_versionsOf.mp h))

theorem signedEvaluatedVersion_isSome_iff {v : ProcedureSkillVersion} :
    (db.signedEvaluatedVersion v).isSome ↔ ∃ c ∈ db.versionsOf v.skillId,
      c.version ≤ v.version ∧ c.contentSha256 = v.contentSha256 ∧ db.isSignedEvaluated c := by
  simp only [SkillDb.signedEvaluatedVersion, List.find?_isSome, List.mem_reverse, Bool.and_eq_true,
    Bool.not_eq_true', Bool.or_eq_false_iff, decide_eq_false_iff_not, not_lt, not_not, and_assoc]

theorem versionView_valid_iff {v : ProcedureSkillVersion} :
    (db.versionView v).signatureStatus = .valid ↔ db.isRevoked v.skillId v.version = false ∧
      ∃ c ∈ db.versionsOf v.skillId, c.version ≤ v.version ∧
        c.contentSha256 = v.contentSha256 ∧ db.isSignedEvaluated c := by
  rw [← signedEvaluatedVersion_isSome_iff]
  unfold SkillDb.versionView
  cases hr : db.isRevoked v.skillId v.version with
  | true => simp
  | false =>
    cases hs : db.signedEvaluatedVersion v with
    | none => simp
    | some c =>
      have hc := List.find?_some hs
      have hm := skillId_of_mem (List.mem_reverse.mp (List.mem_of_find?_eq_some hs))
      simp only [Bool.and_eq_true, SkillDb.isSignedEvaluated, SkillDb.hasBundle, hm] at hc
      simp [hc.2.1, hc.2.2]

theorem contentRevoked_iff {skillId contentSha256 : String} :
    ContentRevoked db skillId contentSha256 ↔ AlreadyRevoked db skillId contentSha256 := by
  constructor
  · rintro ⟨hviews, hbundles⟩ v hv hc (hb | hs)
    · exact hbundles v hv hc hb
    · by_contra hr
      refine hviews (db.versionView v) (List.mem_map_of_mem hv) hc (versionView_valid_iff.mpr ?_)
      rw [skillId_of_mem hv, hc]
      exact ⟨by simpa using hr, hs⟩
  · intro h
    constructor
    · intro view hview hc hvalid
      obtain ⟨v, hv, rfl⟩ := List.mem_map.mp hview
      obtain ⟨hr, hs⟩ := versionView_valid_iff.mp hvalid
      change v.contentSha256 = _ at hc
      rw [skillId_of_mem hv, hc] at hs
      rw [skillId_of_mem hv, h v hv hc (Or.inr hs)] at hr
      cases hr
    · exact fun v hv hc hb => h v hv hc (Or.inl hb)

end Views

/-! ## After a deprecation -/

/-- What commands keep of a skill that was deprecated when its version `n` was current: the versions
up to `n` with their revocations, and that every newer one is deprecated and revoked. -/
structure DeprecatedAt (before : SkillDb) (skillId : String) (n : ℕ) (now : SkillDb) : Prop where
  versions : ∀ m ≤ n, now.versions.get (skillId, m) = before.versions.get (skillId, m)
  revoked : ∀ m ≤ n, now.isRevoked skillId m = before.isRevoked skillId m
  newer : ∀ m v, n < m → now.versions.get (skillId, m) = some v →
    v.state = .deprecated ∧ now.isRevoked skillId m
  evaluations : now.evaluations = before.evaluations
  bundles : now.bundles = before.bundles
  head : ∃ row, now.skills.get skillId = some row ∧ n < row.currentVersion

section Step

variable {service : SkillLifecycleService} {command : SkillLifecycleCommand} {db db' : SkillDb}

/-- The rows that a command adds. -/
theorem Persisted.get_version {input : CommitInput} (h : Persisted input db db')
    (hd : Decided service db input.command input.result) (k : String × ℕ) :
    db'.versions.get k = if (input.command.skillId, input.command.expectedVersion + 1) = k then
      some input.result else db.versions.get k := by
  rw [Table.get_of_insert h.versions, hd.skillId, hd.version]

theorem CommitInput.MadeBy.revocation {input : CommitInput} (h : input.MadeBy service) :
    input.revocation = match input.command.operation with
      | .promote _ => none
      | .«deprecate» _ => some ⟨input.command.idempotencyKey ++ ":revocation",
          input.result.skillId, input.result.version, input.audit.reason,
          input.command.occurredAt⟩ := by
  obtain ⟨current, reason, h⟩ := h
  rw [h]
  rfl

theorem isRevoked_insert {revocation : SkillRevocation} {db db' : SkillDb}
    (h : db.revocations.insert revocation = some db'.revocations) (skillId : String) (n : ℕ) :
    db'.isRevoked skillId n = (db.isRevoked skillId n ||
      decide (revocation.skillId = skillId ∧ revocation.skillVersion = n)) := by
  unfold SkillDb.isRevoked SkillDb.revocationOf
  rw [Table.rows_of_insert h, List.find?_append, Option.isSome_or]
  congr 1
  by_cases hr : revocation.skillId = skillId ∧ revocation.skillVersion = n
  · simp [hr]
  · simp [hr]

/-- A command revokes nothing but the version that it adds, and that if it is a deprecation. -/
theorem Persisted.isRevoked {input : CommitInput} (h : Persisted input db db')
    (hmade : input.MadeBy service) (hd : Decided service db input.command input.result)
    (skillId : String) (n : ℕ) :
    db'.isRevoked skillId n = (db.isRevoked skillId n ||
      match input.command.operation with
      | .promote _ => false
      | .«deprecate» _ => decide (input.command.skillId = skillId ∧
          input.command.expectedVersion + 1 = n)) := by
  have hr := h.revocations
  rw [hmade.revocation] at hr
  cases ho : input.command.operation with
  | promote requiredOracles =>
    rw [ho] at hr
    change db'.revocations = db.revocations at hr
    rw [SkillDb.isRevoked, SkillDb.revocationOf, hr, Bool.or_false]
    rfl
  | «deprecate» reason =>
    rw [ho] at hr
    rw [isRevoked_insert hr, hd.skillId, hd.version]

/-- There is no version after the current one. -/
theorem Lawful.le_current (hl : Lawful service db) {skillId : String} {row : SkillRow}
    (hrow : db.skills.get skillId = some row) {m : ℕ} {v : ProcedureSkillVersion}
    (hv : db.versions.get (skillId, m) = some v) : m ≤ row.currentVersion := by
  obtain ⟨row', hrow', -, hm⟩ := (hl.gapless skillId m).mp (by rw [hv]; rfl)
  rw [hrow] at hrow'
  cases hrow'
  exact hm

/-- The deprecation itself. -/
theorem deprecatedAt_of_change (hl : Lawful service db) (h : Change service command db db')
    {reason : String} (ho : command.operation = .«deprecate» reason) :
    DeprecatedAt db command.skillId command.expectedVersion db' := by
  obtain ⟨input, rfl, hmade, -, hd, hp⟩ := h
  obtain ⟨row, hrow, hcurrent⟩ := hp.head
  have hrevoked := hp.isRevoked hmade hd
  simp only [ho] at hrevoked
  constructor
  · intro m hm
    rw [hp.get_version hd, if_neg]
    rw [Prod.mk.injEq]
    omega
  · intro m hm
    rw [hrevoked, decide_eq_false (by omega), Bool.or_false]
  · intro m v hm hv
    rw [hp.get_version hd] at hv
    split at hv
    · next he =>
      cases hv
      have hn := congrArg Prod.snd he
      rcases hd.state with ⟨-, -, hs⟩ | ⟨-, requiredOracles, -, hpromote, -⟩
      · refine ⟨hs, ?_⟩
        rw [hrevoked, decide_eq_true ⟨rfl, hn⟩, Bool.or_true]
      · rw [ho] at hpromote
        cases hpromote
    · have hle := hl.le_current hrow hv
      omega
  · exact hp.evaluations
  · exact hp.bundles
  · refine ⟨_, (hp.skills _).trans (if_pos rfl), ?_⟩
    rw [hd.version]
    exact Nat.lt_succ_self _

/-- A command on a skill that is deprecated can only deprecate it again. -/
theorem DeprecatedAt.operation {before : SkillDb} {input : CommitInput} {n : ℕ}
    (h : DeprecatedAt before input.command.skillId n db)
    (hd : Decided service db input.command input.result) (hp : Persisted input db db') :
    n < input.command.expectedVersion ∧ (∃ reason, input.command.operation = .«deprecate» reason) ∧
      input.result.state = .deprecated := by
  obtain ⟨row, hrow, hcurrent⟩ := hp.head
  obtain ⟨row', hrow', hlt⟩ := h.head
  rw [hrow] at hrow'
  cases hrow'
  rw [hcurrent] at hlt
  refine ⟨hlt, ?_⟩
  rcases hd.state with ⟨reason, ho, hs⟩ | ⟨-, requiredOracles, u, -, hu, ha⟩
  · exact ⟨⟨reason, ho⟩, hs⟩
  · have hdeprecated := (h.newer _ u hlt hu).1
    rw [ha.verified] at hdeprecated
    cases hdeprecated

theorem DeprecatedAt.change {before : SkillDb} {skillId : String} {n : ℕ}
    (h : DeprecatedAt before skillId n db) (hc : Change service command db db') :
    DeprecatedAt before skillId n db' := by
  obtain ⟨input, rfl, hmade, -, hd, hp⟩ := hc
  have hrevoked := hp.isRevoked hmade hd
  by_cases hs : input.command.skillId = skillId
  · subst hs
    obtain ⟨hlt, ⟨reason, ho⟩, hstate⟩ := h.operation hd hp
    simp only [ho] at hrevoked
    constructor
    · intro m hm
      rw [hp.get_version hd, if_neg, h.versions m hm]
      rw [Prod.mk.injEq]
      omega
    · intro m hm
      rw [hrevoked, decide_eq_false (by omega), Bool.or_false, h.revoked m hm]
    · intro m v hm hv
      rw [hp.get_version hd] at hv
      rw [hrevoked]
      split at hv
      · next he =>
        cases hv
        rw [decide_eq_true ⟨rfl, congrArg Prod.snd he⟩, Bool.or_true]
        exact ⟨hstate, rfl⟩
      · obtain ⟨hstate, hr⟩ := h.newer m v hm hv
        exact ⟨hstate, by rw [hr, Bool.true_or]⟩
    · rw [hp.evaluations, h.evaluations]
    · rw [hp.bundles, h.bundles]
    · refine ⟨_, (hp.skills _).trans (if_pos rfl), ?_⟩
      change n < input.result.version
      rw [hd.version]
      omega
  · have hsame (m : ℕ) : db'.isRevoked skillId m = db.isRevoked skillId m := by
      rw [hrevoked]
      cases input.command.operation with
      | promote _ => exact Bool.or_false _
      | «deprecate» _ =>
        dsimp only
        rw [decide_eq_false (fun he => hs he.1), Bool.or_false]
    have hversion (m : ℕ) : db'.versions.get (skillId, m) = db.versions.get (skillId, m) := by
      rw [hp.get_version hd, if_neg fun he => hs (congrArg Prod.fst he)]
    constructor
    · intro m hm
      rw [hversion, h.versions m hm]
    · intro m hm
      rw [hsame, h.revoked m hm]
    · intro m v hm hv
      rw [hversion] at hv
      rw [hsame]
      exact h.newer m v hm hv
    · rw [hp.evaluations, h.evaluations]
    · rw [hp.bundles, h.bundles]
    · rw [hp.skills, if_neg (Ne.symm hs)]
      exact h.head

/-- Revoking the new version only, a deprecation leaves the content as revoked as it was. -/
theorem DeprecatedAt.alreadyRevoked_iff {before : SkillDb} {skillId : String} {n : ℕ}
    (h : DeprecatedAt before skillId n db) (hn : ∀ v ∈ before.versionsOf skillId, v.version ≤ n)
    (contentSha256 : String) :
    AlreadyRevoked db skillId contentSha256 ↔ AlreadyRevoked before skillId contentSha256 := by
  have hmem {v : ProcedureSkillVersion} (hv : v.version ≤ n) :
      v ∈ db.versionsOf skillId ↔ v ∈ before.versionsOf skillId := by
    rw [mem_versionsOf, mem_versionsOf, h.versions _ hv]
  have hbundle (v : ProcedureSkillVersion) : db.hasBundle v = before.hasBundle v := by
    rw [SkillDb.hasBundle, SkillDb.hasBundle, h.bundles]
  have hsigned (v : ProcedureSkillVersion) :
      db.isSignedEvaluated v = before.isSignedEvaluated v := by
    simp only [SkillDb.isSignedEvaluated, SkillDb.latestEvaluation, SkillDb.evaluationsOf,
      h.evaluations, hbundle]
  constructor
  · intro hr v hv hc hs
    have hle := hn v hv
    rw [← h.revoked _ hle]
    apply hr v ((hmem hle).mpr hv) hc
    rw [hbundle]
    refine hs.imp_right ?_
    rintro ⟨c, hcm, hcv, hcc, hcs⟩
    refine ⟨c, (hmem (hn c hcm)).mpr hcm, hcv, hcc, ?_⟩
    rw [hsigned]
    exact hcs
  · intro hr v hv hc hs
    by_cases hle : v.version ≤ n
    · rw [h.revoked _ hle]
      apply hr v ((hmem hle).mp hv) hc
      rw [← hbundle]
      refine hs.imp_right ?_
      rintro ⟨c, hcm, hcv, hcc, hcs⟩
      refine ⟨c, (hmem (hcv.trans hle)).mp hcm, hcv, hcc, ?_⟩
      rw [← hsigned]
      exact hcs
    · exact (h.newer _ v (not_le.mp hle) (mem_versionsOf.mp hv)).2

/-- The step that records a deprecation. -/
theorem deprecatedAt_of_recorded (hl : Lawful service db) (hc : Change service command db db')
    {key : String} {row : SkillLifecycleCommandRow} {reason : String}
    (hnone : db.commands.get key = none) (hrow : db'.commands.get key = some row)
    (ho : row.operation = .«deprecate» reason) :
    ∃ n, DeprecatedAt db row.skillId n db' ∧ ∀ v ∈ db.versionsOf row.skillId, v.version ≤ n := by
  obtain ⟨input, rfl, hmade, hfree, hd, hp⟩ := id hc
  have he : input.commandRow = row := by
    rw [Table.get_of_insert hp.commands, hnone] at hrow
    split at hrow
    · exact Option.some.inj hrow
    · cases hrow
  subst he
  obtain ⟨head, hhead, hcurrent⟩ := hp.head
  refine ⟨input.command.expectedVersion, deprecatedAt_of_change hl hc ho, fun v hv => ?_⟩
  rw [← hcurrent]
  exact hl.le_current hhead (mem_versionsOf.mp hv)

end Step

section Runs

variable {service : SkillLifecycleService} {db before : SkillDb} {skillId : String} {n : ℕ}

theorem DeprecatedAt.sqliteSession (hl : Lawful service db) {raised : LifecycleError}
    {events : List CommandEvent}
    (h : DeprecatedAt before skillId n (sqliteSession service raised db events).committed)
    (later : List CommandEvent) :
    DeprecatedAt before skillId n
      (sqliteSession service raised db (events ++ later)).committed := by
  induction later generalizing events with
  | nil => rwa [List.append_nil]
  | cons e later ih =>
    rw [List.append_cons]
    apply ih
    have hstep : Skill.sqliteSession service raised db (events ++ [e]) =
        (Skill.sqliteSession service raised db events).step skillDatabase raised
          (service.apply sqliteSkillStore) e := List.foldl_concat ..
    rcases sqlite_step (lawful_sqliteSession hl raised events) raised e with
      hsame | ⟨i, command, result, -, -, hchange⟩
    · rw [hstep, hsame]
      exact h
    · rw [hstep]
      exact h.change hchange

theorem DeprecatedAt.postgresSession (hl : Lawful service db) {raised : LifecycleError}
    {events : List CommandEvent}
    (h : DeprecatedAt before skillId n (postgresSession service raised db events).committed)
    (later : List CommandEvent) :
    DeprecatedAt before skillId n
      (postgresSession service raised db (events ++ later)).committed := by
  induction later generalizing events with
  | nil => rwa [List.append_nil]
  | cons e later ih =>
    rw [List.append_cons]
    apply ih
    have hstep : Skill.postgresSession service raised db (events ++ [e]) =
        (Skill.postgresSession service raised db events).step postgresDatabase raised
          (service.apply postgresSkillStore) e := List.foldl_concat ..
    rcases postgres_step (lawful_postgresSession hl raised events) raised e with
      hsame | ⟨i, command, result, -, -, hchange⟩
    · rw [hstep, hsame]
      exact h
    · rw [hstep]
      exact h.change hchange

end Runs

/-- From the step on that recorded a deprecation, in every interleaving on both stores, the content
is revoked just when it was already before that step. -/
theorem deprecated_content_revoked_iff (service : SkillLifecycleService) {db : SkillDb}
    (h : Prepared db) (raised : LifecycleError) (events : List CommandEvent) (e : CommandEvent)
    (key reason : String) (row : SkillLifecycleCommandRow)
    (ho : row.operation = .«deprecate» reason) :
    (let now := fun events => (sqliteSession service raised db events).committed
     (now events).commands.get key = none → (now (events ++ [e])).commands.get key = some row →
     ((∀ later, ContentRevoked (now (events ++ e :: later)) row.skillId row.result.contentSha256) ↔
       AlreadyRevoked (now events) row.skillId row.result.contentSha256)) ∧
    (let now := fun events => (postgresSession service raised db events).committed
     (now events).commands.get key = none → (now (events ++ [e])).commands.get key = some row →
     ((∀ later, ContentRevoked (now (events ++ e :: later)) row.skillId row.result.contentSha256) ↔
       AlreadyRevoked (now events) row.skillId row.result.contentSha256)) := by
  have hl := h.fresh.lawful service
  constructor
  · intro now hnone hrow
    have hw := lawful_sqliteSession hl raised events
    have hstep : sqliteSession service raised db (events ++ [e]) =
        (sqliteSession service raised db events).step skillDatabase raised
          (service.apply sqliteSkillStore) e := List.foldl_concat ..
    obtain ⟨n, hdep, hn⟩ : ∃ n, DeprecatedAt (now events) row.skillId n (now (events ++ [e])) ∧
        ∀ v ∈ (now events).versionsOf row.skillId, v.version ≤ n := by
      rcases sqlite_step hw raised e with hsame | ⟨i, command, result, -, -, hchange⟩
      · rw [← hstep] at hsame
        change now (events ++ [e]) = now events at hsame
        rw [hsame, hnone] at hrow
        cases hrow
      · rw [← hstep] at hchange
        exact deprecatedAt_of_recorded hw.inv hchange hnone hrow ho
    have hiff (later : List CommandEvent) :
        ContentRevoked (now (events ++ e :: later)) row.skillId row.result.contentSha256 ↔
          AlreadyRevoked (now events) row.skillId row.result.contentSha256 := by
      rw [contentRevoked_iff, List.append_cons]
      exact (hdep.sqliteSession hl later).alreadyRevoked_iff hn _
    exact ⟨fun hr => (hiff []).mp (hr []), fun hr later => (hiff later).mpr hr⟩
  · intro now hnone hrow
    have hw := lawful_postgresSession hl raised events
    have hstep : postgresSession service raised db (events ++ [e]) =
        (postgresSession service raised db events).step postgresDatabase raised
          (service.apply postgresSkillStore) e := List.foldl_concat ..
    obtain ⟨n, hdep, hn⟩ : ∃ n, DeprecatedAt (now events) row.skillId n (now (events ++ [e])) ∧
        ∀ v ∈ (now events).versionsOf row.skillId, v.version ≤ n := by
      rcases postgres_step hw raised e with hsame | ⟨i, command, result, -, -, hchange⟩
      · rw [← hstep] at hsame
        change now (events ++ [e]) = now events at hsame
        rw [hsame, hnone] at hrow
        cases hrow
      · rw [← hstep] at hchange
        exact deprecatedAt_of_recorded hw.inv hchange hnone hrow ho
    have hiff (later : List CommandEvent) :
        ContentRevoked (now (events ++ e :: later)) row.skillId row.result.contentSha256 ↔
          AlreadyRevoked (now events) row.skillId row.result.contentSha256 := by
      rw [contentRevoked_iff, List.append_cons]
      exact (hdep.postgresSession hl later).alreadyRevoked_iff hn _
    exact ⟨fun hr => (hiff []).mp (hr []), fun hr later => (hiff later).mpr hr⟩

def deprecation : SkillLifecycleCommand := sampleCommand (.«deprecate» "superseded") "key"

/-- The deprecation of the verified version, up to its commit. -/
def deprecationEvents : List CommandEvent :=
  .spawn 0 deprecation :: List.replicate 12 (.advance 0 none)

def deprecatedDb : SkillDb :=
  (sqliteSession sampleService aborted sampleDb (deprecationEvents ++ [.advance 0 none])).committed

def deprecationRow : SkillLifecycleCommandRow :=
  (sampleService.commitInput deprecation (sampleVersion 3 .verified) (sampleVersion 4 .deprecated)
    "superseded").commandRow

theorem bundleMatches_sampleSigned (version : ℕ) (state : SkillState) :
    bundleMatchesVersion (some (sampleSigned version state)) (sampleVersion version state) := by
  have hm : (sampleSigned version state).manifest.contentSha256 =
    (sampleVersion version state).contentSha256 := rfl
  simp only [bundleMatchesVersion, Option.any_some, hm]
  simp [sampleSigned, sampleBundle, sampleVersion, sampleContent]

theorem sampleDb_deprecated :
    (∀ later, ContentRevoked (sqliteSession sampleService aborted sampleDb
      (deprecationEvents ++ .advance 0 none :: later)).committed "skill"
        (sampleVersion 4 .deprecated).contentSha256) ↔
    AlreadyRevoked (sqliteSession sampleService aborted sampleDb deprecationEvents).committed
      "skill"
      (sampleVersion 4 .deprecated).contentSha256 :=
  (deprecated_content_revoked_iff sampleService prepared_sampleDb aborted deprecationEvents
    (.advance 0 none) "key" "superseded" deprecationRow rfl).1 rfl rfl

/-- The version that was verified and signed is valid after the deprecation, and is not revoked. -/
theorem deprecated_version_stays_valid :
    deprecatedDb.commands.get "key" = some deprecationRow ∧
    deprecationRow.operation = .«deprecate» "superseded" ∧
    deprecatedDb.hasBundle (sampleVersion 3 .verified) ∧
    deprecatedDb.isRevoked "skill" 3 = false ∧
    (∃ view ∈ deprecatedDb.versionViews "skill", view.version = 3 ∧
      view.contentSha256 = deprecationRow.result.contentSha256 ∧ view.signatureStatus = .valid) ∧
    ¬ ContentRevoked deprecatedDb "skill" deprecationRow.result.contentSha256 := by
  have hget : deprecatedDb.bundles.get ("skill", 3) = some (sampleSigned 3 .verified) := rfl
  have hbundle : deprecatedDb.hasBundle (sampleVersion 3 .verified) := by
    change bundleMatchesVersion (deprecatedDb.bundles.get ("skill", 3)) _
    rw [hget]
    exact bundleMatches_sampleSigned 3 .verified
  have hrevoked : deprecatedDb.isRevoked "skill" 3 = false := by decide
  have hevaluation : (deprecatedDb.latestEvaluation "skill" 3).any (·.signatureValid) := by
    decide
  have hmem : sampleVersion 3 .verified ∈ deprecatedDb.versionsOf "skill" :=
    mem_versionsOf.mpr rfl
  have hvalid : (deprecatedDb.versionView (sampleVersion 3 .verified)).signatureStatus = .valid :=
    versionView_valid_iff.mpr ⟨hrevoked, sampleVersion 3 .verified, hmem, le_rfl, rfl,
      Bool.and_eq_true_iff.mpr ⟨hevaluation, hbundle⟩⟩
  have hview := List.mem_map_of_mem (f := deprecatedDb.versionView) hmem
  refine ⟨rfl, rfl, hbundle, hrevoked, ⟨_, hview, rfl, rfl, hvalid⟩, fun h => ?_⟩
  exact h.views _ hview rfl hvalid

end Qualigence.Skill
