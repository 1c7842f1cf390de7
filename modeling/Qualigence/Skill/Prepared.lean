import Qualigence.Skill.Invariant

/-! # What commands start from

The other writes of the stores: a version saved after the current one, evaluations, signed bundles
and revocations. What they make of empty tables, before there is any command, satisfies the
invariant.
-/

namespace Qualigence.Skill

open Foundation Protocol

def SkillDb.empty : SkillDb :=
  ⟨.empty, .empty, .empty, .empty, .empty, .empty, .empty⟩

/-- An insertion in a method that raises the error of the database. -/
def insertInto {ρ κ : Type} [DecidableEq κ] {key : ρ → κ} (table : String) (t : Table ρ key)
    (row : ρ) : Except LifecycleError (Table ρ key) :=
  match t.insert row with
  | some u => .ok u
  | none => .error (.database s!"UNIQUE constraint failed: {table}")

def currentVersion (db : SkillDb) (skillId : String) : ℕ :=
  ((db.skills.get skillId).map (·.currentVersion)).getD 0

/-- The head of a saved version. -/
def saveHead (version : ProcedureSkillVersion) (createdAt : String) (db : SkillDb) :
    Except LifecycleError (Table SkillRow (·.skillId)) :=
  if (db.skills.get version.skillId).isNone then
    insertInto "skills" db.skills ⟨version.skillId, version.version, version.state, createdAt⟩
  else
    .ok (db.skills.update (fun r => r.skillId = version.skillId)
      (fun r => ⟨r.skillId, version.version, version.state, createdAt⟩) fun _ => rfl)

def saveSkillVersion (version : ProcedureSkillVersion) (expectedVersion : ℕ) (createdAt : String)
    (db : SkillDb) : Except LifecycleError SkillDb :=
  if currentVersion db version.skillId ≠ expectedVersion then
    .error (.skill .skillVersionConflict (s!"Skill {version.skillId} expected version " ++
      s!"{expectedVersion} but stored version is {currentVersion db version.skillId}.") none)
  else do
    let skills ← saveHead version createdAt db
    let versions ← insertInto "skill_versions" db.versions version
    .ok { db with skills, versions }

/-- Evaluations, bundles and revocations are kept as they were saved first. -/
def saveEvaluation (evaluation : SkillEvaluation) (db : SkillDb) : SkillDb :=
  { db with evaluations := (db.evaluations.insert evaluation).getD db.evaluations }

def saveBundle (bundle : SignedSkillBundle) (db : SkillDb) : SkillDb :=
  { db with bundles := (db.bundles.insert bundle).getD db.bundles }

def revoke (revocation : SkillRevocation) (db : SkillDb) : SkillDb :=
  { db with revocations := (db.revocations.insert revocation).getD db.revocations }

/-- The tables before any command: every version was saved as the next one of its skill, and none
as a promoted one. -/
inductive Prepared : SkillDb → Prop
  | empty : Prepared .empty
  | version {db db' : SkillDb} {version : ProcedureSkillVersion} {expectedVersion : ℕ}
      {createdAt : String} (h : Prepared db) (next : version.version = expectedVersion + 1)
      (unpromoted : version.state ≠ .promoted)
      (saved : saveSkillVersion version expectedVersion createdAt db = .ok db') : Prepared db'
  | evaluation {db : SkillDb} (h : Prepared db) (evaluation : SkillEvaluation) :
      Prepared (saveEvaluation evaluation db)
  | bundle {db : SkillDb} (h : Prepared db) (bundle : SignedSkillBundle) :
      Prepared (saveBundle bundle db)
  | revocation {db : SkillDb} (h : Prepared db) (revocation : SkillRevocation) :
      Prepared (revoke revocation db)

/-- The invariant of tables without commands. -/
structure Fresh (db : SkillDb) : Prop where
  gapless : ∀ skillId n, (db.versions.get (skillId, n)).isSome ↔
    ∃ row, db.skills.get skillId = some row ∧ 1 ≤ n ∧ n ≤ row.currentVersion
  current : ∀ skillId row, db.skills.get skillId = some row →
    ∃ v, db.versions.get (skillId, row.currentVersion) = some v ∧ v.state = row.currentState
  unpromoted : ∀ k v, db.versions.get k = some v → v.state ≠ .promoted
  commands : db.commands = .empty

theorem Fresh.lawful {db : SkillDb} (h : Fresh db) (service : SkillLifecycleService) :
    Lawful service db where
  gapless := h.gapless
  current := h.current
  promoted skillId n v hv hp := absurd hp (h.unpromoted _ v hv)
  stored key row hr := by
    rw [h.commands] at hr
    cases hr

theorem insertInto_eq_ok {ρ κ : Type} [DecidableEq κ] {key : ρ → κ} {table : String}
    {t u : Table ρ key} {row : ρ} (h : insertInto table t row = .ok u) : t.insert row = some u := by
  unfold insertInto at h
  split at h
  · next he =>
    cases h
    exact he
  · cases h

/-- A saved version is the head, and is added after the current version. -/
theorem saveSkillVersion_eq_ok {version : ProcedureSkillVersion} {expectedVersion : ℕ}
    {createdAt : String} {db db' : SkillDb}
    (h : saveSkillVersion version expectedVersion createdAt db = .ok db') :
    currentVersion db version.skillId = expectedVersion ∧
      (∀ skillId, db'.skills.get skillId = if skillId = version.skillId then
        some ⟨skillId, version.version, version.state, createdAt⟩ else db.skills.get skillId) ∧
      db.versions.insert version = some db'.versions ∧ db'.commands = db.commands := by
  unfold saveSkillVersion at h
  split at h
  · cases h
  · next hv =>
    obtain ⟨skills, hskills, h⟩ := bind_eq_ok.mp h
    obtain ⟨versions, hversions, h⟩ := bind_eq_ok.mp h
    cases h
    refine ⟨not_not.mp hv, fun skillId => ?_, insertInto_eq_ok hversions, rfl⟩
    unfold saveHead at hskills
    split at hskills
    · rw [Table.get_of_insert (insertInto_eq_ok hskills)]
      by_cases hs : skillId = version.skillId
      · simp [hs]
      · simp [hs, Ne.symm hs]
    · next hsome =>
      cases hskills
      rw [Table.get_update]
      by_cases hs : skillId = version.skillId
      · subst hs
        obtain ⟨row, hrow⟩ := Option.ne_none_iff_exists'.mp (by simpa using hsome)
        have hk := Table.key_of_get hrow
        simp [hrow, hk]
      · rw [if_neg hs]
        cases hg : db.skills.get skillId with
        | none => rfl
        | some r =>
          have hk := Table.key_of_get hg
          simp [hk, hs]

theorem Fresh.version {db db' : SkillDb} {version : ProcedureSkillVersion} {expectedVersion : ℕ}
    {createdAt : String} (h : Fresh db) (next : version.version = expectedVersion + 1)
    (unpromoted : version.state ≠ .promoted)
    (saved : saveSkillVersion version expectedVersion createdAt db = .ok db') : Fresh db' := by
  obtain ⟨hcurrent, hskills, hinsert, hcommands⟩ := saveSkillVersion_eq_ok saved
  have hversion (k : String × ℕ) : db'.versions.get k =
      if (version.skillId, expectedVersion + 1) = k then some version else db.versions.get k := by
    rw [Table.get_of_insert hinsert, next]
  constructor
  · intro skillId n
    rw [hversion, hskills]
    by_cases hs : skillId = version.skillId
    · subst hs
      rw [if_pos rfl]
      by_cases hn : expectedVersion + 1 = n
      · subst hn
        simp [next]
      · rw [if_neg (by simp [hn]), h.gapless]
        unfold currentVersion at hcurrent
        cases hrow : db.skills.get version.skillId with
        | none =>
          rw [hrow] at hcurrent
          simp only [Option.map_none, Option.getD_none] at hcurrent
          simp [next]
          omega
        | some row =>
          rw [hrow] at hcurrent
          simp only [Option.map_some, Option.getD_some] at hcurrent
          simp only [Option.some.injEq, exists_eq_left', next]
          omega
    · rw [if_neg (fun he => hs (congrArg Prod.fst he).symm), if_neg hs]
      exact h.gapless skillId n
  · intro skillId row hr
    rw [hskills] at hr
    rw [hversion]
    by_cases hs : skillId = version.skillId
    · rw [if_pos hs] at hr
      cases hr
      exact ⟨version, if_pos (by rw [hs, next]), rfl⟩
    · rw [if_neg hs] at hr
      rw [if_neg (fun he => hs (congrArg Prod.fst he).symm)]
      exact h.current skillId row hr
  · intro k v hv
    rw [hversion] at hv
    split at hv
    · cases hv
      exact unpromoted
    · exact h.unpromoted k v hv
  · rw [hcommands, h.commands]

theorem Prepared.fresh {db : SkillDb} (h : Prepared db) : Fresh db := by
  induction h with
  | empty =>
    constructor
    · simp [SkillDb.empty]
    · simp [SkillDb.empty]
    · simp [SkillDb.empty]
    · rfl
  | version _ next unpromoted saved ih => exact ih.version next unpromoted saved
  | evaluation _ _ ih => exact ⟨ih.gapless, ih.current, ih.unpromoted, ih.commands⟩
  | bundle _ _ ih => exact ⟨ih.gapless, ih.current, ih.unpromoted, ih.commands⟩
  | revocation _ _ ih => exact ⟨ih.gapless, ih.current, ih.unpromoted, ih.commands⟩

/-! ## A verified skill -/

def sampleEvaluation : SkillEvaluation where
  evaluationId := "evaluation"
  skillId := "skill"
  skillVersion := 3
  oracles := ⟨⟨"final-state", .passed, none⟩, []⟩
  outcome := .passed
  signatureValid := true
  createdAt := "2026-08-01T00:00:01.000Z"

/-- A skill that was compiled, recorded as a candidate, and verified. -/
def sampleVersions : Except LifecycleError SkillDb := do
  let db ← saveSkillVersion (sampleVersion 1 .draft) 0 "2026-08-01T00:00:00.000Z" .empty
  let db ← saveSkillVersion (sampleVersion 2 .candidate) 1 "2026-08-01T00:00:00.000Z" db
  saveSkillVersion (sampleVersion 3 .verified) 2 "2026-08-01T00:00:00.000Z" db

/-- The tables with its passed evaluation and its bundle. -/
def sampleDb : SkillDb :=
  saveBundle (sampleSigned 3 .verified)
    (saveEvaluation sampleEvaluation (sampleVersions.toOption.getD .empty))

theorem prepared_sampleDb : Prepared sampleDb := by
  apply Prepared.bundle
  apply Prepared.evaluation
  cases h : sampleVersions with
  | error e => exact .empty
  | ok db =>
    obtain ⟨db₁, h₁, h⟩ := bind_eq_ok.mp h
    obtain ⟨db₂, h₂, h₃⟩ := bind_eq_ok.mp h
    have hp₁ : Prepared db₁ := by
      refine Prepared.empty.version ?_ ?_ h₁
      · rfl
      · exact (by decide : SkillState.draft ≠ .promoted)
    have hp₂ : Prepared db₂ := by
      refine hp₁.version ?_ ?_ h₂
      · rfl
      · exact (by decide : SkillState.candidate ≠ .promoted)
    refine hp₂.version ?_ ?_ h₃
    · rfl
    · exact (by decide : SkillState.verified ≠ .promoted)

end Qualigence.Skill
