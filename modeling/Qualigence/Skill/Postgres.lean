import Qualigence.Foundation.Locking
import Qualigence.Skill.Interleaved

/-! # Lifecycle commands in transactions of their own

On Postgres every command runs in one transaction, which reads what is committed. An advisory lock
on its key is held to the end, and the update of the head locks the head; so what the command
decided on stands when it commits.
-/

namespace Qualigence.Skill

open Foundation Protocol

inductive PostgresOp where
  | sql (op : SkillOp)
  | advisoryLock (idempotencyKey : String)

def PostgresSql : Signature where
  Op := PostgresOp
  Reply
    | .sql op => SkillSql.Reply op
    | .advisoryLock _ => Unit

/-- A row, a key of an index, or the advisory lock of a key. -/
inductive SkillLock where
  | head (skillId : String)
  | version (skillId : String) (version : ℕ)
  | revocation (revocationId : String)
  | command (idempotencyKey : String)
  | audit (auditId : String)
  | advisory (idempotencyKey : String)
  deriving DecidableEq

/-- The database of one tenant. Every writer of commands takes their advisory locks first, which
protect the rows of their keys. -/
def postgresDatabase : LockingDatabase PostgresSql LifecycleError SkillDb SkillLock where
  handle
    | .sql op, db => handleSkill op db
    | .advisoryLock _, db => (.ok (), db)
  unchanged_of_error := by
    intro op db e h
    cases op with
    | sql op => exact skillDatabase.unchanged_of_error op db e h
    | advisoryLock key => cases h
  locks
    | .advisoryLock key, _ => [.advisory key]
    | .sql (.updateHead skillId _ _ _ _), (updated : ℕ) =>
      if updated = 0 then [] else [.head skillId]
    | .sql (.insertVersion v), _ => [.version v.skillId v.version]
    | .sql (.insertRevocation r), _ => [.revocation r.revocationId]
    | .sql (.insertCommand row), _ => [.command row.idempotencyKey]
    | .sql (.insertAudit event), _ => [.audit event.auditId]
    | _, _ => []
  same
    | .head skillId, s, t => t.skills.get skillId = s.skills.get skillId
    | .version skillId n, s, t => t.versions.get (skillId, n) = s.versions.get (skillId, n)
    | .revocation id, s, t => t.revocations.get id = s.revocations.get id
    | .command key, s, t => t.commands.get key = s.commands.get key
    | .audit id, s, t => t.audits.get id = s.audits.get id
    | .advisory key, s, t => t.commands.get key = s.commands.get key
  same_refl := by
    intro k s
    cases k <;> rfl
  same_trans := by
    intro k s t u h h'
    cases k <;> exact h'.trans h

/-! ## The store -/

instance {S : Signature} {ε : Type} : MonadExcept ε (Program S ε) where
  throw := Program.throw
  tryCatch := Program.tryCatch

/-- The statements of the shared store in a transaction that is open already. -/
def onPostgres {α : Type} : Program SkillSql LifecycleError α → Program PostgresSql LifecycleError α
  | .pure a => .pure a
  | .throw e => .throw e
  | .call op next => .call (.sql op) fun r => onPostgres (next r)

def postgresReplay (idempotencyKey commandHash : String) :
    Program PostgresSql LifecycleError SkillLifecycleReplayResult := do
  Program.perform (S := PostgresSql) (.advisoryLock idempotencyKey)
  onPostgres (readLifecycleReplay idempotencyKey commandHash)

def postgresSkillStore : SkillRepository (Program PostgresSql LifecycleError) where
  replayLifecycleCommand := postgresReplay
  latestVersion skillId := do
    match ← Program.perform (S := PostgresSql) (.sql (.readHead skillId)) with
    | none => pure none
    | some head =>
      Program.perform (S := PostgresSql) (.sql (.readVersion skillId head.currentVersion))
  evaluations skillId version :=
    Program.perform (S := PostgresSql) (.sql (.readEvaluations skillId version))
  bundle skillId version := Program.perform (S := PostgresSql) (.sql (.readBundle skillId version))
  commitLifecycleCommand input := do
    match ← postgresReplay input.command.idempotencyKey input.commandHash with
    | .replayed result => pure result
    | .conflict resultVersion => Program.throw (idempotencyConflict resultVersion)
    | .notFound => do
      onPostgres (persistLifecycleResult input)
      pure input.result

/-! ## The reads of a command -/

section Reads

variable {service : SkillLifecycleService} {command : SkillLifecycleCommand} {α : Type}
  {change : SkillDb → SkillDb → Prop} {post : SkillDb → Except LifecycleError α → Prop}
  {held : List SkillLock} {c : SkillDb}

/-- A statement that reads. -/
theorem sql_quiet (op : SkillOp)
    {f : Except LifecycleError (SkillSql.Reply op) → Program PostgresSql LifecycleError α}
    (hread : ∀ db, (handleSkill op db).2 = db)
    (hlocks : ∀ a, postgresDatabase.locks (PostgresOp.sql op) a = [])
    (h : ∀ c' a, Meanwhile postgresDatabase (skillContract service) held c c' →
      (handleSkill op c').1 = .ok a →
      QuietHonors postgresDatabase (skillContract service) change post (f (.ok a)) held c') :
    QuietHonors postgresDatabase (skillContract service) change post
      (.call (.sql op) f) held c :=
  quietHonors_read (S := PostgresSql) hread hlocks h

/-- The search for a stored result, and what follows it under the lock of the key. -/
theorem postgresReplay_quiet {key commandHash : String}
    {f : SkillLifecycleReplayResult → Program PostgresSql LifecycleError α}
    (h : ∀ c' r, Meanwhile postgresDatabase (skillContract service) held c c' →
      ReplayedFrom key commandHash c' (.ok r) c' →
      QuietHonors postgresDatabase (skillContract service) change post (f r)
        (held ++ [.advisory key]) c') :
    QuietHonors postgresDatabase (skillContract service) change post
      ((postgresReplay key commandHash).bind f) held c := by
  refine quietHonors_step (S := PostgresSql) (fun _ => rfl) fun c₁ _ hm₁ _ => ?_
  refine sql_quiet (.readCommand key) (fun _ => rfl) (fun _ => rfl)
    fun c₂ a hm₂ hr => ?_
  have hm := hm₁.trans (hm₂.mono fun k hk => List.mem_append_left _ hk)
  cases hr
  cases hrow : c₂.commands.get key with
  | none => exact h c₂ .notFound hm ⟨rfl, hrow⟩
  | some row =>
    change QuietHonors _ _ _ _
      ((onPostgres (if row.commandHash ≠ commandHash then _ else _)).bind f) _ _
    split
    · exact h c₂ (.conflict row.resultVersion) hm rfl
    · next hh => exact h c₂ (.replayed row.result) hm ⟨rfl, row, hrow, not_not.mp hh, rfl⟩

theorem latestVersion_quiet {skillId : String}
    {f : Option ProcedureSkillVersion → Program PostgresSql LifecycleError α}
    (h : ∀ c' read, Meanwhile postgresDatabase (skillContract service) held c c' →
      CurrentRead skillId c' (.ok read) →
      QuietHonors postgresDatabase (skillContract service) change post (f read) held c') :
    QuietHonors postgresDatabase (skillContract service) change post
      ((postgresSkillStore.latestVersion skillId).bind f) held c := by
  refine sql_quiet (.readHead skillId) (fun _ => rfl) (fun _ => rfl)
    fun c₁ a hm₁ hr => ?_
  cases hr
  cases c₁.skills.get skillId with
  | none => exact h c₁ none hm₁ trivial
  | some head =>
    refine sql_quiet (.readVersion skillId head.currentVersion)
      (fun _ => rfl) (fun _ => rfl) fun c₂ a hm₂ hr => ?_
    cases hr
    refine h c₂ _ (hm₁.trans hm₂) ?_
    cases hv : c₂.versions.get (skillId, head.currentVersion) with
    | none => trivial
    | some current =>
      have hk := Table.key_of_get hv
      obtain ⟨hskill, hversion⟩ := Prod.mk.inj hk
      refine ⟨hskill, fun _ => ?_⟩
      rw [hversion]
      exact hv

theorem decide_quiet {current : ProcedureSkillVersion}
    {f : ProcedureSkillVersion × String → Program PostgresSql LifecycleError α}
    (hc : CurrentRead command.skillId c (.ok (some current)))
    (hv : current.version = command.expectedVersion)
    (h : ∀ c' decision, Meanwhile postgresDatabase (skillContract service) held c c' →
      Decided service c' command decision.1 →
      QuietHonors postgresDatabase (skillContract service) change post (f decision) held c')
    (hinv : Lawful service c) :
    QuietHonors postgresDatabase (skillContract service) change post
      ((service.decide postgresSkillStore command current).bind f) held c := by
  obtain ⟨hskill, hverified⟩ := hc
  unfold SkillLifecycleService.decide
  cases ho : command.operation with
  | promote requiredOracles =>
    refine sql_quiet (.readEvaluations current.skillId current.version)
      (fun _ => rfl) (fun _ => rfl) fun c₁ a hm₁ hr => ?_
    cases hr
    refine sql_quiet (.readBundle current.skillId current.version)
      (fun _ => rfl) (fun _ => rfl) fun c₂ a hm₂ hr => ?_
    cases hr
    have he : c₁.evaluationsOf current.skillId current.version =
        c₂.evaluationsOf current.skillId current.version := by
      rw [SkillDb.evaluationsOf, SkillDb.evaluationsOf, ← hm₂.later.evaluations]
    change QuietHonors _ _ _ _ (Program.bind (Program.bind (SkillLifecycleService.raise
      (service.decidePromotion command requiredOracles current
        (c₁.evaluationsOf current.skillId current.version)
        (c₂.bundles.get (current.skillId, current.version)))) _) f) held c₂
    rw [he]
    cases hd : service.decidePromotion command requiredOracles current
        (c₂.evaluationsOf current.skillId current.version)
        (c₂.bundles.get (current.skillId, current.version)) with
    | error e => exact quietHonors_throw
    | ok result =>
      obtain ⟨ha, rfl⟩ := decidePromotion_eq_ok hd
      have hm := hm₁.trans hm₂
      refine h c₂ (_, _) hm ⟨hskill, congrArg (· + 1) hv,
        Or.inr ⟨rfl, requiredOracles, current, ho, ?_, ha⟩⟩
      rw [← hv]
      exact hm.later.versions _ _ (hverified ha.verified)
  | «deprecate» reason =>
    change QuietHonors _ _ _ _ (Program.bind (Program.bind (SkillLifecycleService.raise
      ((TestSkill.fromVersion current).«deprecate» command.expectedVersion
        command.idempotencyKey)) _) f) held c
    cases hd : (TestSkill.fromVersion current).«deprecate» command.expectedVersion
        command.idempotencyKey with
    | error e => exact quietHonors_throw
    | ok skill =>
      obtain ⟨-, hs⟩ := deprecate_eq_ok hd
      refine h c (_, _) (Meanwhile.refl hinv) ?_
      rw [hs]
      exact ⟨hskill, congrArg (· + 1) hv, Or.inl ⟨reason, ho, rfl⟩⟩

end Reads

/-! ## The writes of a command -/

section Writes

variable {service : SkillLifecycleService} {input : CommitInput}

/-- The head is at the expected version, and the keys of the rows of a command are free. -/
structure Writable (input : CommitInput) (db : SkillDb) : Prop where
  head : ∃ row, db.skills.get input.command.skillId = some row ∧
    row.currentVersion = input.command.expectedVersion
  version : db.versions.get (input.result.skillId, input.result.version) = none
  revocation : ∀ r, input.revocation = some r → db.revocations.get r.revocationId = none
  command : db.commands.get input.command.idempotencyKey = none
  audit : db.audits.get input.audit.auditId = none

def headWrite (input : CommitInput) : SkillOp :=
  .updateHead input.command.skillId input.command.expectedVersion input.result.version
    input.result.state input.command.occurredAt

/-- What the writes before the command's own row do. -/
def writeVersion (input : CommitInput) (db : SkillDb) : SkillDb :=
  let db := (handleSkill (.insertVersion input.result) (handleSkill (headWrite input) db).2).2
  match input.revocation with
  | none => db
  | some revocation => (handleSkill (.insertRevocation revocation) db).2

theorem Writable.persisted {db : SkillDb} (h : Writable input db) :
    Persisted input db (handleSkill (.insertAudit input.audit)
      (handleSkill (.insertCommand input.commandRow) (writeVersion input db)).2).2 := by
  obtain ⟨row, hrow, hcurrent⟩ := h.head
  obtain ⟨versions, hversions⟩ := Table.exists_insert h.version
  obtain ⟨commands, hcommands⟩ : ∃ u, db.commands.insert input.commandRow = some u :=
    Table.exists_insert h.command
  obtain ⟨audits, haudits⟩ := Table.exists_insert h.audit
  have hskills := get_update_head hrow hcurrent
  unfold writeVersion
  cases hr : input.revocation with
  | none =>
    simp only [handleSkill, headWrite, insertRow, hversions, hcommands, haudits]
    refine ⟨⟨row, hrow, hcurrent⟩, hskills, hversions, ?_, hcommands, haudits, rfl, rfl⟩
    rw [hr]
  | some revocation =>
    obtain ⟨revocations, hrevocations⟩ := Table.exists_insert (h.revocation revocation hr)
    simp only [handleSkill, headWrite, insertRow, hversions, hcommands, haudits, hrevocations]
    refine ⟨⟨row, hrow, hcurrent⟩, hskills, hversions, ?_, hcommands, haudits, rfl, rfl⟩
    rw [hr]
    exact hrevocations

theorem free_of_insertRow_ok {ρ κ : Type} [DecidableEq κ] {key : ρ → κ} {table : String}
    {t : Table ρ key} {row : ρ} {put : Table ρ key → SkillDb} {w : SkillDb}
    (h : (insertRow table t row put w).1 = .ok ()) : t.get (key row) = none := by
  obtain ⟨u, hu, -⟩ := insertRow_ok h
  exact Table.get_eq_none_of_insert hu

theorem insertRow_table {ρ κ τ : Type} [DecidableEq κ] {key : ρ → κ} {table : String}
    {t : Table ρ key} {row : ρ} {put : Table ρ key → SkillDb} {w : SkillDb} (get : SkillDb → τ)
    (h : ∀ u, get (put u) = get w) : get (insertRow table t row put w).2 = get w := by
  unfold insertRow
  cases t.insert row with
  | none => rfl
  | some u => exact h u

theorem replay_write (writes : List PostgresOp) (op : PostgresOp) (db : SkillDb) :
    postgresDatabase.replay (writes ++ [op]) db =
      (postgresDatabase.handle op (postgresDatabase.replay writes db)).2 :=
  LockingDatabase.replay_append (S := PostgresSql) writes op db

theorem writeVersion_audits {db : SkillDb} : (writeVersion input db).audits = db.audits := by
  have hv : (handleSkill (.insertVersion input.result)
      (handleSkill (headWrite input) db).2).2.audits = db.audits :=
    insertRow_table (·.audits) fun _ => rfl
  unfold writeVersion
  cases input.revocation with
  | none => exact hv
  | some revocation =>
    have hr : (handleSkill (.insertRevocation revocation) (handleSkill
        (.insertVersion input.result) (handleSkill (headWrite input) db).2).2).2.audits =
        (handleSkill (.insertVersion input.result) (handleSkill (headWrite input) db).2).2.audits :=
      insertRow_table (·.audits) fun _ => rfl
    exact hr.trans hv

/-- What a command has locked when its own row is written. -/
def versionLocks (input : CommitInput) : List SkillLock :=
  [.advisory input.command.idempotencyKey, .head input.command.skillId,
    .version input.result.skillId input.result.version] ++
    (input.revocation.map fun r => .revocation r.revocationId).toList

/-- What a transaction changes of a resource that it has not locked. -/
theorem Persisted.same {db db' : SkillDb} (h : Persisted input db db') {k : SkillLock}
    (hk : k ∉ versionLocks input ++
      [.command input.command.idempotencyKey, .audit input.audit.auditId]) :
    postgresDatabase.same k db db' := by
  simp only [versionLocks, List.mem_append, List.mem_cons, List.not_mem_nil, or_false,
    Option.mem_toList, Option.map_eq_some_iff, not_or, not_exists, not_and] at hk
  obtain ⟨⟨⟨hadvisory, hhead, hversion⟩, hrevocation⟩, hcommand, haudit⟩ := hk
  cases k with
  | head skillId =>
    change db'.skills.get skillId = _
    rw [h.skills, if_neg fun he => hhead (by rw [he])]
  | version skillId n =>
    change db'.versions.get (skillId, n) = _
    rw [Table.get_of_insert h.versions, if_neg fun he => hversion (by cases he; rfl)]
  | revocation id =>
    change db'.revocations.get id = _
    have hr := h.revocations
    split at hr
    · rw [hr]
    · next r he =>
      rw [Table.get_of_insert hr, if_neg fun hid => hrevocation r he (by rw [hid])]
  | command key =>
    change db'.commands.get key = _
    rw [Table.get_of_insert h.commands]
    exact if_neg fun he => hcommand (congrArg SkillLock.command he.symm)
  | audit id =>
    change db'.audits.get id = _
    rw [Table.get_of_insert h.audits, if_neg fun he => haudit (by rw [he])]
  | advisory key =>
    change db'.commands.get key = _
    rw [Table.get_of_insert h.commands]
    exact if_neg fun he => hadvisory (congrArg SkillLock.advisory he.symm)

/-- The head is at the expected version, and the keys of the new version, its revocation and the
command are free. -/
structure VersionFree (input : CommitInput) (db : SkillDb) : Prop where
  head : ∃ row, db.skills.get input.command.skillId = some row ∧
    row.currentVersion = input.command.expectedVersion
  version : db.versions.get (input.result.skillId, input.result.version) = none
  revocation : ∀ r, input.revocation = some r → db.revocations.get r.revocationId = none
  command : db.commands.get input.command.idempotencyKey = none

theorem VersionFree.meanwhile {db db' : SkillDb} {held : List SkillLock} (h : VersionFree input db)
    (hm : Meanwhile postgresDatabase (skillContract service) held db db')
    (hs : ∀ k ∈ versionLocks input, k ∈ held) : VersionFree input db' := by
  have hsame := fun k hk => hm.same k (hs k hk)
  simp only [versionLocks, List.mem_append, List.mem_cons, List.not_mem_nil, or_false,
    Option.mem_toList, Option.map_eq_some_iff] at hsame
  constructor
  · have he : db'.skills.get input.command.skillId = db.skills.get input.command.skillId :=
      hsame (.head _) (by simp)
    rw [he]
    exact h.head
  · have he : db'.versions.get (input.result.skillId, input.result.version) = _ :=
      hsame (.version _ _) (by simp)
    rw [he]
    exact h.version
  · intro r hr
    have he : db'.revocations.get r.revocationId = _ := hsame (.revocation _) (by simp [hr])
    rw [he]
    exact h.revocation r hr
  · have he : db'.commands.get input.command.idempotencyKey = _ :=
      hsame (.advisory _) (by simp)
    rw [he]
    exact h.command

/-- The row of the command and its audit event, and the commit. -/
theorem end_lockHonors {writes : List PostgresOp} {held : List SkillLock} {c : SkillDb}
    (hw : ∀ db, postgresDatabase.replay writes db = writeVersion input db)
    (hs : ∀ k ∈ versionLocks input, k ∈ held) (hfree : VersionFree input c)
    (hd : Decided service c input.command input.result)
    (hmade : input.MadeBy service) :
    LockHonors postgresDatabase (skillContract service) (Change service input.command)
      (Outcome service input.command)
      ((onPostgres ((Program.perform (S := SkillSql) (.insertCommand input.commandRow)).bind
        fun _ => Program.perform (S := SkillSql) (.insertAudit input.audit))).bind
          fun _ => .pure input.result) writes held c := by
  intro c₁ _ hm₁ _ c₂ _ hm₂ hr₂ c₃ hm₃
  have hlocks : ∀ k ∈ versionLocks input ++
      [.command input.command.idempotencyKey, .audit input.audit.auditId],
      k ∈ held ++ [.command input.command.idempotencyKey] ++ [.audit input.audit.auditId] := by
    intro k hk
    rw [List.append_assoc]
    rcases List.mem_append.mp hk with hk | hk
    · exact List.mem_append_left _ (hs k hk)
    · exact List.mem_append_right _ hk
  have hm₂' : Meanwhile postgresDatabase (skillContract service) held c₁ c₂ :=
    hm₂.mono fun k hk => List.mem_append_left _ hk
  have hm₃' : Meanwhile postgresDatabase (skillContract service) held c₂ c₃ :=
    hm₃.mono fun k hk => List.mem_append_left _ (List.mem_append_left _ hk)
  have hm := (hm₁.trans hm₂').trans hm₃'
  have hrow (db : SkillDb) :
      postgresDatabase.replay (writes ++ [.sql (.insertCommand input.commandRow)]) db =
        (handleSkill (.insertCommand input.commandRow) (writeVersion input db)).2 := by
    refine (replay_write writes (.sql (.insertCommand input.commandRow)) db).trans ?_
    rw [hw]
    rfl
  have haudit : c₂.audits.get input.audit.auditId = none := by
    change (handleSkill (.insertAudit input.audit)
      (postgresDatabase.replay (writes ++ [.sql (.insertCommand input.commandRow)]) c₂)).1 = _
      at hr₂
    rw [hrow] at hr₂
    have hfree : (handleSkill (.insertCommand input.commandRow)
      (writeVersion input c₂)).2.audits.get input.audit.auditId = none := free_of_insertRow_ok hr₂
    have ha : (handleSkill (.insertCommand input.commandRow) (writeVersion input c₂)).2.audits =
      (writeVersion input c₂).audits := insertRow_table (·.audits) fun _ => rfl
    rwa [ha, writeVersion_audits] at hfree
  have haudit' : c₃.audits.get input.audit.auditId = none := by
    have he : c₃.audits.get input.audit.auditId = _ :=
      hm₃.same (.audit _) (List.mem_append_right _ (List.mem_singleton_self _))
    exact he.trans haudit
  obtain ⟨hhead, hversion, hrevocation, hcommand⟩ := hfree.meanwhile hm hs
  have hd₃ := hd.later hm.later
  intro t
  have ht : t = (handleSkill (.insertAudit input.audit)
      (handleSkill (.insertCommand input.commandRow) (writeVersion input c₃)).2).2 := by
    refine (replay_write (writes ++ [.sql (.insertCommand input.commandRow)])
      (.sql (.insertAudit input.audit)) c₃).trans ?_
    exact congrArg (fun db => (handleSkill (.insertAudit input.audit) db).2) (hrow c₃)
  have hp : Persisted input c₃ t := by
    rw [ht]
    exact Writable.persisted ⟨hhead, hversion, hrevocation, hcommand, haudit'⟩
  refine ⟨hm.inv.persisted hd₃ hp, hp.later, fun k hk => hp.same fun hk' => hk (hlocks k hk'),
    ⟨input.commandRow, ?_, hmade.hash, rfl⟩, Or.inr ⟨input, rfl, hmade, hcommand, hd₃, hp⟩⟩
  rw [Table.get_of_insert hp.commands]
  exact if_pos rfl

/-- All writes of a decided command whose key is free, and the commit. -/
theorem persist_lockHonors {writes : List PostgresOp} {held : List SkillLock} {c : SkillDb}
    (hw : ∀ db, postgresDatabase.replay writes db = db)
    (hs : .advisory input.command.idempotencyKey ∈ held)
    (hfree : c.commands.get input.command.idempotencyKey = none)
    (hd : Decided service c input.command input.result)
    (hmade : input.MadeBy service) :
    LockHonors postgresDatabase (skillContract service) (Change service input.command)
      (Outcome service input.command)
      ((onPostgres (persistLifecycleResult input)).bind fun _ => .pure input.result)
      writes held c := by
  have hkeep {held' : List SkillLock} {c c' : SkillDb} {k : SkillLock} (hk : k ∈ held')
      (hm : Meanwhile postgresDatabase (skillContract service) held' c c') := hm.same k hk
  intro c₁ updated hm₁ hr₁
  have hcommand : c₁.commands.get input.command.idempotencyKey = none :=
    (hkeep hs hm₁ : c₁.commands.get _ = _).trans hfree
  change (handleSkill (headWrite input) (postgresDatabase.replay writes c₁)).1 = _ at hr₁
  rw [hw] at hr₁
  cases hr₁
  change LockHonors _ _ _ _ ((onPostgres (if _ ≠ 1 then _ else _)).bind _) _ _ _
  split
  · exact fun _ _ _ _ => trivial
  next hone =>
  rw [not_not] at hone
  have hhead := count_selectsHead _ _ hone
  have hlocks : postgresDatabase.locks (PostgresOp.sql (headWrite input))
      (c₁.skills.count (selectsHead input.command.skillId input.command.expectedVersion)) =
        [.head input.command.skillId] := by
    rw [hone]
    rfl
  have hw₁ (db : SkillDb) :
      postgresDatabase.replay (writes ++ [PostgresOp.sql (headWrite input)]) db =
        (handleSkill (headWrite input) db).2 := by
    refine (replay_write writes (PostgresOp.sql (headWrite input)) db).trans ?_
    rw [hw]
    rfl
  change LockHonors postgresDatabase (skillContract service) _ _ _
    (writes ++ [PostgresOp.sql (headWrite input)])
    (held ++ postgresDatabase.locks (PostgresOp.sql (headWrite input)) _) _
  rw [hlocks]
  intro c₂ _ hm₂ hr₂
  change (handleSkill (.insertVersion input.result)
    (postgresDatabase.replay (writes ++ [PostgresOp.sql (headWrite input)]) c₂)).1 = _ at hr₂
  rw [hw₁] at hr₂
  have hversion : c₂.versions.get (input.result.skillId, input.result.version) = none :=
    free_of_insertRow_ok hr₂
  have hhead₂ : c₂.skills.get input.command.skillId = c₁.skills.get input.command.skillId :=
    hm₂.same (.head _) (by simp)
  have hcommand₂ : c₂.commands.get input.command.idempotencyKey = none :=
    (hm₂.same (.advisory _) (by simp [hs]) : _ = c₁.commands.get _).trans hcommand
  have hd₂ := hd.later (hm₁.later.trans hm₂.later)
  rw [← hhead₂] at hhead
  have hw₂ (db : SkillDb) : postgresDatabase.replay
      (writes ++ [PostgresOp.sql (headWrite input)] ++
        [PostgresOp.sql (.insertVersion input.result)]) db =
        (handleSkill (.insertVersion input.result) (handleSkill (headWrite input) db).2).2 := by
    refine (replay_write (writes ++ [PostgresOp.sql (headWrite input)])
      (PostgresOp.sql (.insertVersion input.result)) db).trans ?_
    exact congrArg (fun db => (handleSkill (.insertVersion input.result) db).2) (hw₁ db)
  cases hr : input.revocation with
  | none =>
    refine end_lockHonors (fun db => ?_) ?_ ⟨hhead, hversion, ?_, hcommand₂⟩ hd₂ hmade
    · rw [writeVersion, hr]
      exact hw₂ db
    · simp [versionLocks, hr, hs, postgresDatabase]
    · simp [hr]
  | some revocation =>
    intro c₃ _ hm₃ hr₃
    change (handleSkill (.insertRevocation revocation) (postgresDatabase.replay
      (writes ++ [PostgresOp.sql (headWrite input)] ++
        [PostgresOp.sql (.insertVersion input.result)]) c₃)).1 = _ at hr₃
    rw [hw₂] at hr₃
    have hrevocation : (handleSkill (.insertVersion input.result)
        (handleSkill (headWrite input) c₃).2).2.revocations.get revocation.revocationId = none :=
      free_of_insertRow_ok hr₃
    have hsame : (handleSkill (.insertVersion input.result)
        (handleSkill (headWrite input) c₃).2).2.revocations = c₃.revocations :=
      insertRow_table (·.revocations) fun _ => rfl
    rw [hsame] at hrevocation
    have hhead₃ : c₃.skills.get input.command.skillId = c₂.skills.get input.command.skillId :=
      hm₃.same (.head _) (by simp)
    have hversion₃ : c₃.versions.get (input.result.skillId, input.result.version) = none :=
      (hm₃.same (.version _ _) (by simp [postgresDatabase]) : _ = c₂.versions.get _).trans hversion
    have hcommand₃ : c₃.commands.get input.command.idempotencyKey = none :=
      (hm₃.same (.advisory _) (by simp [hs]) : _ = c₂.commands.get _).trans hcommand₂
    rw [← hhead₃] at hhead
    refine end_lockHonors (fun db => ?_) ?_ ⟨hhead, hversion₃, ?_, hcommand₃⟩
      (hd₂.later hm₃.later) hmade
    · rw [writeVersion, hr]
      refine (replay_write (writes ++ [PostgresOp.sql (headWrite input)] ++
        [PostgresOp.sql (.insertVersion input.result)])
        (PostgresOp.sql (.insertRevocation revocation)) db).trans ?_
      exact congrArg (fun db => (handleSkill (.insertRevocation revocation) db).2) (hw₂ db)
    · simp [versionLocks, hr, hs, postgresDatabase]
    · simp [hr, hrevocation]

end Writes

/-- A whole command. -/
theorem apply_lockHonors {service : SkillLifecycleService} {command : SkillLifecycleCommand}
    {c : SkillDb} (hc : Lawful service c) :
    LockHonors postgresDatabase (skillContract service) (Change service command)
      (Outcome service command) (service.apply postgresSkillStore command) [] [] c := by
  suffices h : QuietHonors postgresDatabase (skillContract service) (Change service command)
      (Outcome service command) (service.apply postgresSkillStore command) [] c from
    h [] fun _ => rfl
  have hreplayed {held : List SkillLock} {c : SkillDb} {hash : String}
      {result : ProcedureSkillVersion}
      (hhash : hash = skillLifecycleCommandHash service.platform command)
      (hr : ReplayedFrom command.idempotencyKey hash c (.ok (.replayed result)) c) :
      QuietHonors postgresDatabase (skillContract service) (Change service command)
        (Outcome service command) (.pure result) held c := by
    obtain ⟨-, row, hrow, hh, hres⟩ := hr
    apply quietHonors_pure
    intro c' hm
    exact Outcome.later hm.later ⟨row, hrow, hh.trans hhash, hres⟩
  unfold SkillLifecycleService.apply
  change QuietHonors _ _ _ _ (Program.bind (if command.abortedAtFirst then _ else _) _) _ _
  split
  · exact quietHonors_throw
  refine postgresReplay_quiet fun c₁ r hm₁ hr => ?_
  cases r with
  | conflict resultVersion => exact quietHonors_throw
  | replayed result => exact hreplayed rfl hr
  | notFound =>
    refine latestVersion_quiet fun c₂ read hm₂ hread => ?_
    cases hcur : SkillLifecycleService.requireCurrent command read with
    | error e => exact quietHonors_throw
    | ok current =>
      obtain ⟨rfl, hv⟩ := requireCurrent_eq_ok hcur
      refine decide_quiet hread hv (fun c₃ decision hm₃ hd => ?_) hm₂.inv
      obtain ⟨result, reason⟩ := decision
      change QuietHonors _ _ _ _ (Program.bind (if command.abortedBeforeCommit then _ else _) _) _ _
      split
      · exact quietHonors_throw
      refine postgresReplay_quiet fun c₄ r hm₄ hr => ?_
      cases r with
      | conflict resultVersion => exact quietHonors_throw
      | replayed result => exact hreplayed rfl hr
      | notFound =>
        intro writes hw
        exact persist_lockHonors hw (by simp [SkillLifecycleService.commitInput]) hr.2
          (Decided.later hd hm₄.later) ⟨current, reason, rfl⟩

end Qualigence.Skill
