import Qualigence.Skill.Lifecycle

/-! # What lifecycle commands keep

The invariant of the tables, what a decision must have established before it is committed, and what
the writes of a command change: they keep the invariant whenever the decision stands.
-/

namespace Qualigence.Skill

open Foundation Protocol

/-- The version is verified, its latest evaluation passed with the required oracles, and its bundle
was verified at the given time. -/
structure Approved (service : SkillLifecycleService) (db : SkillDb)
    (version : ProcedureSkillVersion) (requiredOracles : List String) (now : String) : Prop where
  verified : version.state = .verified
  evaluation : ∃ evaluation,
    (db.evaluationsOf version.skillId version.version).getLast? = some evaluation ∧
      evaluation.outcome = .passed ∧ evaluation.signatureValid ∧
      ∀ oracle ∈ requiredOracles, ∃ result ∈ evaluation.oracles.toList,
        result.oracle = oracle ∧ result.status = .passed
  bundle : ∃ bundle, db.bundles.get (version.skillId, version.version) = some bundle ∧
    bundleMatchesVersion (some bundle) version ∧
    service.signatureVerification version bundle now = .valid

/-- The versions of every skill are those from the first to the current one, whose state is the
current state; a promoted version was produced by a command from an approved version; and the
result of a command is a version. -/
structure Lawful (service : SkillLifecycleService) (db : SkillDb) : Prop where
  gapless : ∀ skillId n, (db.versions.get (skillId, n)).isSome ↔
    ∃ row, db.skills.get skillId = some row ∧ 1 ≤ n ∧ n ≤ row.currentVersion
  current : ∀ skillId row, db.skills.get skillId = some row →
    ∃ v, db.versions.get (skillId, row.currentVersion) = some v ∧ v.state = row.currentState
  promoted : ∀ skillId n v, db.versions.get (skillId, n) = some v → v.state = .promoted →
    ∃ key row requiredOracles u, db.commands.get key = some row ∧ row.result = v ∧
      row.operation = .promote requiredOracles ∧ u.version + 1 = n ∧
      db.versions.get (skillId, u.version) = some u ∧
      Approved service db u requiredOracles row.createdAt
  stored : ∀ key row, db.commands.get key = some row → row.resultVersion = row.result.version ∧
    db.versions.get (row.skillId, row.resultVersion) = some row.result

/-- Rows of versions and commands stay; evaluations and bundles do not change. -/
structure Later (db db' : SkillDb) : Prop where
  versions : ∀ k v, db.versions.get k = some v → db'.versions.get k = some v
  commands : ∀ k row, db.commands.get k = some row → db'.commands.get k = some row
  evaluations : db'.evaluations = db.evaluations
  bundles : db'.bundles = db.bundles

/-- What statements may read of a database while a command is being committed. -/
structure Seen (db visible : SkillDb) : Prop where
  versions : ∀ k v, visible.versions.get k = some v → v.state = .verified →
    db.versions.get k = some v
  evaluations : visible.evaluations = db.evaluations
  bundles : visible.bundles = db.bundles

theorem Later.refl (db : SkillDb) : Later db db := ⟨fun _ _ h => h, fun _ _ h => h, rfl, rfl⟩

theorem Later.trans {db db' db'' : SkillDb} (h : Later db db') (h' : Later db' db'') :
    Later db db'' where
  versions k v hv := h'.versions k v (h.versions k v hv)
  commands k row hr := h'.commands k row (h.commands k row hr)
  evaluations := h'.evaluations.trans h.evaluations
  bundles := h'.bundles.trans h.bundles

theorem Seen.refl (db : SkillDb) : Seen db db := ⟨fun _ _ h _ => h, rfl, rfl⟩

theorem Approved.later {service : SkillLifecycleService} {db db' : SkillDb}
    {version : ProcedureSkillVersion} {requiredOracles : List String} {now : String}
    (h : Approved service db version requiredOracles now) (hl : Later db db') :
    Approved service db' version requiredOracles now where
  verified := h.verified
  evaluation := by
    rw [SkillDb.evaluationsOf, hl.evaluations]
    exact h.evaluation
  bundle := by
    rw [hl.bundles]
    exact h.bundle

/-- What is known of the result of a command before it is committed. -/
structure Decided (service : SkillLifecycleService) (db : SkillDb)
    (command : SkillLifecycleCommand) (result : ProcedureSkillVersion) : Prop where
  skillId : result.skillId = command.skillId
  version : result.version = command.expectedVersion + 1
  state : (∃ reason, command.operation = .«deprecate» reason ∧ result.state = .deprecated) ∨
    result.state = .promoted ∧ ∃ requiredOracles u, command.operation = .promote requiredOracles ∧
      db.versions.get (command.skillId, command.expectedVersion) = some u ∧
      Approved service db u requiredOracles command.occurredAt

theorem Decided.later {service : SkillLifecycleService} {db db' : SkillDb}
    {command : SkillLifecycleCommand} {result : ProcedureSkillVersion}
    (h : Decided service db command result) (hl : Later db db') :
    Decided service db' command result where
  skillId := h.skillId
  version := h.version
  state := h.state.imp_right fun ⟨hp, requiredOracles, u, ho, hu, ha⟩ =>
    ⟨hp, requiredOracles, u, ho, hl.versions _ _ hu, ha.later hl⟩

theorem Decided.not_verified {service : SkillLifecycleService} {db : SkillDb}
    {command : SkillLifecycleCommand} {result : ProcedureSkillVersion}
    (h : Decided service db command result) : result.state ≠ .verified := by
  rcases h.state with ⟨-, -, hs⟩ | ⟨hs, -⟩ <;> rw [hs] <;> decide

/-- The row of a command. -/
def CommitInput.commandRow (input : CommitInput) : SkillLifecycleCommandRow :=
  ⟨input.command.idempotencyKey, input.commandHash, input.command.operation,
    input.command.skillId, input.command.expectedVersion, input.result.version, input.result,
    input.command.occurredAt⟩

/-- What the writes of a command do. -/
structure Persisted (input : CommitInput) (db db' : SkillDb) : Prop where
  head : ∃ row, db.skills.get input.command.skillId = some row ∧
    row.currentVersion = input.command.expectedVersion
  skills : ∀ skillId, db'.skills.get skillId = if skillId = input.command.skillId then
      some ⟨skillId, input.result.version, input.result.state, input.command.occurredAt⟩
    else db.skills.get skillId
  versions : db.versions.insert input.result = some db'.versions
  revocations : match input.revocation with
    | none => db'.revocations = db.revocations
    | some revocation => db.revocations.insert revocation = some db'.revocations
  commands : db.commands.insert input.commandRow = some db'.commands
  audits : db.audits.insert input.audit = some db'.audits
  evaluations : db'.evaluations = db.evaluations
  bundles : db'.bundles = db.bundles

theorem Persisted.later {input : CommitInput} {db db' : SkillDb} (h : Persisted input db db') :
    Later db db' where
  versions _ _ hv := Table.get_of_insert_of_get h.versions hv
  commands _ _ hr := Table.get_of_insert_of_get h.commands hr
  evaluations := h.evaluations
  bundles := h.bundles

theorem Lawful.persisted {service : SkillLifecycleService} {input : CommitInput}
    {db db' : SkillDb} (hl : Lawful service db)
    (hd : Decided service db input.command input.result) (h : Persisted input db db') :
    Lawful service db' := by
  obtain ⟨head, hhead, hcurrent⟩ := h.head
  have hlater := h.later
  have hversion (k : String × ℕ) : db'.versions.get k =
      if (input.command.skillId, input.command.expectedVersion + 1) = k then some input.result
      else db.versions.get k := by
    rw [Table.get_of_insert h.versions, hd.skillId, hd.version]
  have hrow (key : String) : db'.commands.get key =
      if input.command.idempotencyKey = key then some input.commandRow
      else db.commands.get key := Table.get_of_insert h.commands
  constructor
  · intro skillId n
    rw [hversion, h.skills]
    by_cases hs : skillId = input.command.skillId
    · subst hs
      rw [if_pos rfl]
      by_cases hn : input.command.expectedVersion + 1 = n
      · subst hn
        simp [hd.version]
      · rw [if_neg (by simp [hn]), hl.gapless, hhead]
        simp only [Option.some.injEq, exists_eq_left', hd.version]
        omega
    · rw [if_neg (fun he => hs (congrArg Prod.fst he).symm), if_neg hs]
      exact hl.gapless skillId n
  · intro skillId row hr
    rw [h.skills] at hr
    rw [hversion]
    by_cases hs : skillId = input.command.skillId
    · rw [if_pos hs] at hr
      cases hr
      exact ⟨input.result, if_pos (by rw [hs, hd.version]), rfl⟩
    · rw [if_neg hs] at hr
      rw [if_neg (fun he => hs (congrArg Prod.fst he).symm)]
      exact hl.current skillId row hr
  · intro skillId n v hv hp
    rw [hversion] at hv
    by_cases hk : (input.command.skillId, input.command.expectedVersion + 1) = (skillId, n)
    · rw [if_pos hk] at hv
      cases hv
      cases hk
      rcases hd.state with ⟨-, -, hs⟩ | ⟨-, requiredOracles, u, ho, hu, ha⟩
      · rw [hs] at hp
        cases hp
      · have hkey : u.version = input.command.expectedVersion :=
          congrArg Prod.snd (Table.key_of_get hu)
        refine ⟨input.command.idempotencyKey, input.commandRow, requiredOracles, u, ?_, rfl, ho,
          by rw [hkey], ?_, ha.later hlater⟩
        · rw [hrow, if_pos rfl]
        · rw [hkey]
          exact hlater.versions _ _ hu
    · rw [if_neg hk] at hv
      obtain ⟨key, row, requiredOracles, u, hc, hr, ho, hn, hu, ha⟩ := hl.promoted skillId n v hv hp
      exact ⟨key, row, requiredOracles, u, hlater.commands _ _ hc, hr, ho, hn,
        hlater.versions _ _ hu, ha.later hlater⟩
  · intro key row hr
    rw [hrow] at hr
    by_cases hk : input.command.idempotencyKey = key
    · rw [if_pos hk] at hr
      cases hr
      refine ⟨rfl, ?_⟩
      rw [hversion]
      exact if_pos (by rw [CommitInput.commandRow, hd.version])
    · rw [if_neg hk] at hr
      obtain ⟨hv, hs⟩ := hl.stored key row hr
      exact ⟨hv, hlater.versions _ _ hs⟩

/-- What the service commits for its command. -/
def CommitInput.MadeBy (input : CommitInput) (service : SkillLifecycleService) : Prop :=
  ∃ current reason, input = service.commitInput input.command current input.result reason

theorem CommitInput.MadeBy.hash {input : CommitInput} {service : SkillLifecycleService}
    (h : input.MadeBy service) :
    input.commandHash = skillLifecycleCommandHash service.platform input.command := by
  obtain ⟨current, reason, h⟩ := h
  rw [h]
  rfl

/-- How a command changes the tables: its key was not taken, and its writes are those of a decision
that stood. -/
def Change (service : SkillLifecycleService) (command : SkillLifecycleCommand)
    (db db' : SkillDb) : Prop :=
  ∃ input : CommitInput, input.command = command ∧ input.MadeBy service ∧
    db.commands.get command.idempotencyKey = none ∧
    Decided service db command input.result ∧ Persisted input db db'

/-- A successful command has its result stored under its key. -/
def Outcome (service : SkillLifecycleService) (command : SkillLifecycleCommand) (db : SkillDb) :
    Except LifecycleError ProcedureSkillVersion → Prop
  | .ok result => ∃ row, db.commands.get command.idempotencyKey = some row ∧
      row.commandHash = skillLifecycleCommandHash service.platform command ∧ row.result = result
  | .error _ => True

theorem Outcome.later {service : SkillLifecycleService} {command : SkillLifecycleCommand}
    {db db' : SkillDb} {r : Except LifecycleError ProcedureSkillVersion} (hl : Later db db')
    (h : Outcome service command db r) : Outcome service command db' r := by
  cases r with
  | error e => trivial
  | ok result =>
    obtain ⟨row, hr, hh, hres⟩ := h
    exact ⟨row, hl.commands _ _ hr, hh, hres⟩

end Qualigence.Skill
