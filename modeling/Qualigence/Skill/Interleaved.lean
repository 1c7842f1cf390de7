import Qualigence.Skill.Invariant

/-! # Lifecycle commands that share a connection

Whatever the statements of other commands do between the statements of a command, its decision
stands when its writes are committed. In every interleaving the tables keep their invariant, a
command that ends successfully has its result stored under its key, and one that fails has changed
nothing.
-/

namespace Qualigence.Skill

open Foundation Protocol

def skillContract (service : SkillLifecycleService) : Contract SkillDb where
  inv := Lawful service
  later := Later
  seen := Seen
  later_refl := Later.refl
  later_trans _ _ _ := Later.trans
  seen_refl db _ := Seen.refl db

section Decision

variable {service : SkillLifecycleService} {command : SkillLifecycleCommand} {db : SkillDb}

theorem evaluate_eq_none {version : ProcedureSkillVersion} {evaluation : SkillEvaluation}
    {verification : SkillSignatureVerification} {requiredOracles : List String}
    (h : SkillPromotionPolicy.evaluate version evaluation verification requiredOracles = none) :
    version.state = .verified ∧ verification = .valid ∧ evaluation.outcome = .passed ∧
      evaluation.signatureValid ∧ ∀ oracle ∈ requiredOracles,
        ∃ result ∈ evaluation.oracles.toList, result.oracle = oracle ∧ result.status = .passed := by
  unfold SkillPromotionPolicy.evaluate at h
  dsimp only at h
  split_ifs at h with hs hv ho hsig
  refine ⟨not_not.mp hs, not_not.mp hv, not_not.mp ho, by simpa using hsig, ?_⟩
  intro oracle hm
  have hn := List.find?_eq_none.mp (Option.map_eq_none_iff.mp h) oracle hm
  simp only [decide_eq_true_eq, not_not, List.mem_map, List.mem_filter] at hn
  obtain ⟨result, ⟨hr, hp⟩, he⟩ := hn
  exact ⟨result, hr, he, hp⟩

theorem promote_eq_ok {current : ProcedureSkillVersion} {expectedVersion : ℕ} {key : String}
    {skill : TestSkill}
    (h : (TestSkill.fromVersion current).promote expectedVersion key = .ok skill) :
    skill.snapshot = { current with version := current.version + 1, state := .promoted } := by
  change (if current.state ≠ .verified then _ else _) = _ at h
  split at h
  · cases h
  · obtain ⟨-, -, h⟩ := bind_eq_ok.mp h
    cases h
    rfl

theorem deprecate_eq_ok {current : ProcedureSkillVersion} {expectedVersion : ℕ} {key : String}
    {skill : TestSkill}
    (h : (TestSkill.fromVersion current).«deprecate» expectedVersion key = .ok skill) :
    current.state ≠ .deprecated ∧
      skill.snapshot = { current with version := current.version + 1, state := .deprecated } := by
  change (if current.state = .deprecated then _ else _) = _ at h
  split at h
  · cases h
  · next hs =>
    obtain ⟨-, -, h⟩ := bind_eq_ok.mp h
    cases h
    exact ⟨hs, rfl⟩

/-- An approved promotion of the version that was read. -/
theorem decidePromotion_eq_ok {requiredOracles : List String}
    {current result : ProcedureSkillVersion}
    (h : service.decidePromotion command requiredOracles current
      (db.evaluationsOf current.skillId current.version)
      (db.bundles.get (current.skillId, current.version)) = .ok result) :
    Approved service db current requiredOracles command.occurredAt ∧
      result = { current with version := current.version + 1, state := .promoted } := by
  unfold SkillLifecycleService.decidePromotion at h
  cases he : (db.evaluationsOf current.skillId current.version).getLast? with
  | none =>
    rw [he] at h
    cases h
  | some evaluation =>
    rw [he] at h
    dsimp only at h
    split at h
    · cases h
    · next bundle hb =>
      obtain ⟨hget, hmatch⟩ := Option.filter_eq_some_iff.mp hb
      split at h
      · cases h
      · next hp =>
        obtain ⟨hs, hv, ho, hsig, hor⟩ := evaluate_eq_none hp
        cases hr : (TestSkill.fromVersion current).promote command.expectedVersion
            command.idempotencyKey with
        | error e =>
          rw [hr] at h
          cases h
        | ok skill =>
          rw [hr] at h
          cases h
          exact ⟨⟨hs, ⟨evaluation, he, ho, hsig, hor⟩, ⟨bundle, hget, hmatch, hv⟩⟩,
            promote_eq_ok hr⟩

theorem requireCurrent_eq_ok {read : Option ProcedureSkillVersion}
    {current : ProcedureSkillVersion}
    (h : SkillLifecycleService.requireCurrent command read = .ok current) :
    read = some current ∧ current.version = command.expectedVersion := by
  unfold SkillLifecycleService.requireCurrent at h
  cases read with
  | none => cases h
  | some v =>
    dsimp only at h
    split_ifs at h with hv
    cases h
    exact ⟨rfl, not_not.mp hv⟩

end Decision

section Commit

variable {service : SkillLifecycleService} {db : SkillDb}

theorem insertRow_ok {ρ κ : Type} [DecidableEq κ] {key : ρ → κ} {table : String}
    {t : Table ρ key} {row : ρ} {put : Table ρ key → SkillDb} {w : SkillDb}
    (h : (insertRow table t row put w).1 = .ok ()) :
    ∃ u, t.insert row = some u ∧ (insertRow table t row put w).2 = put u := by
  unfold insertRow at h ⊢
  cases ht : t.insert row with
  | none =>
    rw [ht] at h
    cases h
  | some u => exact ⟨u, rfl, rfl⟩

theorem count_selectsHead (skillId : String) (expectedVersion : ℕ) :
    db.skills.count (selectsHead skillId expectedVersion) = 1 →
      ∃ row, db.skills.get skillId = some row ∧ row.currentVersion = expectedVersion := by
  have hk : ∀ r, selectsHead skillId expectedVersion r → r.skillId = skillId := by
    intro r hr
    exact (of_decide_eq_true hr).1
  rw [Table.count_eq_of_key hk]
  split
  · next h =>
    intro _
    obtain ⟨row, hr, hs⟩ := Option.any_eq_true .. |>.mp h
    exact ⟨row, hr, (of_decide_eq_true hs).2⟩
  · intro h
    cases h

theorem get_update_head {input : CommitInput} {row : SkillRow}
    (hrow : db.skills.get input.command.skillId = some row)
    (hv : row.currentVersion = input.command.expectedVersion) (skillId : String) :
    ((db.skills.update (selectsHead input.command.skillId input.command.expectedVersion)
      (fun r => ⟨r.skillId, input.result.version, input.result.state, input.command.occurredAt⟩)
      fun _ => rfl).get skillId) = if skillId = input.command.skillId then
        some ⟨skillId, input.result.version, input.result.state, input.command.occurredAt⟩
      else db.skills.get skillId := by
  rw [Table.get_update]
  by_cases hs : skillId = input.command.skillId
  · subst hs
    have hk := Table.key_of_get hrow
    simp [hrow, selectsHead, hk, hv]
  · rw [if_neg hs]
    cases hg : db.skills.get skillId with
    | none => rfl
    | some r =>
      have hk := Table.key_of_get hg
      have hn : r.skillId ≠ input.command.skillId := by rwa [hk]
      simp [selectsHead, hn]

/-- After its writes the command is persisted. -/
def PersistedBy (input : CommitInput) (db : SkillDb) : Except LifecycleError Unit → SkillDb → Prop
  | .ok _, w => Persisted input db w
  | .error _, _ => True

/-- After the search for a stored result nothing has changed. -/
def ReplayedFrom (key commandHash : String) (db : SkillDb) :
    Except LifecycleError SkillLifecycleReplayResult → SkillDb → Prop
  | .ok (.replayed result), w => w = db ∧ ∃ row, db.commands.get key = some row ∧
      row.commandHash = commandHash ∧ row.result = result
  | .ok .notFound, w => w = db ∧ db.commands.get key = none
  | _, w => w = db

/-- The revocation of a command is stored, if it has one. -/
def RevocationStored (input : CommitInput) (db : SkillDb)
    (revocations : Table SkillRevocation (·.revocationId)) : Prop :=
  match input.revocation with
  | none => revocations = db.revocations
  | some revocation => db.revocations.insert revocation = some revocations

/-- The writes of a command keep to what others may see, and do what they should. -/
theorem persist_honors {input : CommitInput} (hd : input.result.state ≠ .verified) :
    BodyHonors skillDatabase (skillContract service) db (PersistedBy input db)
      (persistLifecycleResult input) db := by
  have hseen (skills versions revocations commands audits)
      (hv : versions = db.versions ∨ db.versions.insert input.result = some versions) :
      Seen db ⟨skills, versions, db.evaluations, db.bundles, revocations, commands, audits⟩ := by
    refine ⟨fun k v h hs => ?_, rfl, rfl⟩
    rcases hv with rfl | hv
    · exact h
    · rw [Table.get_of_insert hv] at h
      split at h
      · cases h
        exact absurd hs hd
      · exact h
  unfold persistLifecycleResult
  simp only [Program.bind_eq]
  refine bodyHonors_step (Seen.refl db) (fun _ _ => trivial) fun updated hu => ?_
  cases hu
  split
  · refine bodyHonors_step (hseen _ _ _ _ _ (Or.inl rfl)) (fun _ _ => trivial) fun _ _ => ?_
    exact ⟨hseen _ _ _ _ _ (Or.inl rfl), trivial⟩
  · next hone =>
    obtain ⟨row, hrow, hversion⟩ := count_selectsHead _ _ (not_not.mp hone)
    have hskills := get_update_head hrow hversion
    refine bodyHonors_step (hseen _ _ _ _ _ (Or.inl rfl)) (fun _ _ => trivial) fun _ hv => ?_
    obtain ⟨versions, hversions, he⟩ := insertRow_ok hv
    change BodyHonors _ _ _ _ _ (insertRow _ _ _ _ _).2
    rw [he]
    have hend (revocations) (hr : RevocationStored input db revocations) :
        BodyHonors skillDatabase (skillContract service) db (PersistedBy input db)
          ((Program.perform (S := SkillSql) (.insertCommand input.commandRow)).bind fun _ =>
            Program.perform (S := SkillSql) (.insertAudit input.audit))
          ⟨db.skills.update (selectsHead input.command.skillId input.command.expectedVersion)
            (fun r => ⟨r.skillId, input.result.version, input.result.state,
              input.command.occurredAt⟩) fun _ => rfl,
            versions, db.evaluations, db.bundles, revocations, db.commands, db.audits⟩ := by
      apply bodyHonors_step (hseen _ _ _ _ _ (Or.inr hversions))
      · exact fun _ _ => trivial
      intro _ hc
      obtain ⟨commands, hcommands, he⟩ := insertRow_ok hc
      change BodyHonors _ _ _ _ _ (insertRow _ _ _ _ _).2
      rw [he]
      apply bodyHonors_last (S := SkillSql) (.insertAudit input.audit)
        (hseen _ _ _ _ _ (Or.inr hversions))
      · exact fun _ _ => trivial
      intro _ ha
      obtain ⟨audits, haudits, he⟩ := insertRow_ok ha
      change Seen _ (insertRow _ _ _ _ _).2 ∧ Persisted _ _ (insertRow _ _ _ _ _).2
      rw [he]
      exact ⟨hseen _ _ _ _ _ (Or.inr hversions), ⟨row, hrow, hversion⟩, hskills, hversions, hr,
        hcommands, haudits, rfl, rfl⟩
    unfold RevocationStored at hend
    cases hr : input.revocation with
    | none =>
      rw [hr] at hend
      exact hend db.revocations rfl
    | some revocation =>
      rw [hr] at hend
      apply bodyHonors_step
      · exact hseen _ _ _ _ _ (Or.inr hversions)
      · intro _ _
        trivial
      · intro _ hc
        obtain ⟨revocations, hrevocations, he⟩ := insertRow_ok hc
        change BodyHonors _ _ _ _ _ (insertRow _ _ _ _ _).2
        rw [he]
        exact hend revocations hrevocations

/-- The stored result of a command, or that there is none. -/
theorem replay_honors {key commandHash : String} :
    BodyHonors skillDatabase (skillContract service) db (ReplayedFrom key commandHash db)
      (readLifecycleReplay key commandHash) db := by
  refine ⟨Seen.refl db, fun e => ⟨Seen.refl db, rfl⟩, ?_⟩
  have hread : (skillDatabase.handle (.readCommand key) db).1 = .ok (db.commands.get key) := rfl
  rw [hread]
  cases hr : db.commands.get key with
  | none => exact ⟨Seen.refl db, rfl, hr⟩
  | some row =>
    change BodyHonors _ _ _ _ (if row.commandHash ≠ commandHash then _ else _) db
    split
    · exact ⟨Seen.refl db, rfl⟩
    · next hh => exact ⟨Seen.refl db, rfl, row, hr, not_not.mp hh, rfl⟩

/-- A transaction that commits a decided command. -/
theorem commit_honors {input : CommitInput} (hl : Lawful service db)
    (hd : Decided service db input.command input.result)
    (hmade : input.MadeBy service) :
    BodyHonors skillDatabase (skillContract service) db
      (fun r w => match r with
        | .ok result => Lawful service w ∧ Later db w ∧
            Outcome service input.command w (.ok result) ∧
            (w = db ∨ Change service input.command db w)
        | .error _ => True) (commitBody input) db := by
  refine bodyHonors_bind (replay_honors.imp fun r w hs hr => ?_)
  cases r with
  | error e => trivial
  | ok r =>
    cases r with
    | conflict resultVersion => exact ⟨hs, trivial⟩
    | replayed result =>
      obtain ⟨rfl, row, hrow, hhash, hres⟩ := hr
      exact ⟨hs, hl, Later.refl w, ⟨row, hrow, hhash.trans hmade.hash, hres⟩, Or.inl rfl⟩
    | notFound =>
      obtain ⟨rfl, hnone⟩ := hr
      refine bodyHonors_bind ((persist_honors hd.not_verified).imp fun r w' hs' hp => ?_)
      cases r with
      | error e => trivial
      | ok _ =>
        refine ⟨hs', hl.persisted hd hp, Persisted.later hp,
          ⟨input.commandRow, ?_, hmade.hash, rfl⟩,
          Or.inr ⟨input, rfl, hmade, hnone, hd, hp⟩⟩
        rw [Table.get_of_insert (Persisted.commands hp)]
        exact if_pos rfl

end Commit

/-! ## A whole command -/

section Command

variable {service : SkillLifecycleService} {command : SkillLifecycleCommand}

/-- What the reads of a command have established. -/
def ReplayRead (service : SkillLifecycleService) (command : SkillLifecycleCommand)
    (db : SkillDb) : Except LifecycleError SkillLifecycleReplayResult → Prop
  | .ok (.replayed result) => Outcome service command db (.ok result)
  | _ => True

def CurrentRead (skillId : String) (db : SkillDb) :
    Except LifecycleError (Option ProcedureSkillVersion) → Prop
  | .ok (some current) => current.skillId = skillId ∧ (current.state = .verified →
      db.versions.get (skillId, current.version) = some current)
  | _ => True

def DecisionMade (service : SkillLifecycleService) (command : SkillLifecycleCommand)
    (db : SkillDb) : Except LifecycleError (ProcedureSkillVersion × String) → Prop
  | .ok (result, _) => Decided service db command result
  | .error _ => True

theorem latestVersion_reads (skillId : String) (db : SkillDb) :
    Reads skillDatabase (skillContract service) (CurrentRead skillId)
      (sqliteSkillStore.latestVersion skillId) db := by
  intro db₁ v₁ hl₁ hi₁ hs₁
  refine ⟨rfl, ?_, fun _ => trivial⟩
  have hread : (skillDatabase.handle (.readHead skillId) v₁).1 = .ok (v₁.skills.get skillId) := rfl
  rw [hread]
  cases v₁.skills.get skillId with
  | none => trivial
  | some head =>
    intro db₂ v₂ hl₂ hi₂ hs₂
    refine ⟨rfl, ?_, fun _ => trivial⟩
    change CurrentRead skillId db₂ (.ok (v₂.versions.get (skillId, head.currentVersion)))
    cases hv : v₂.versions.get (skillId, head.currentVersion) with
    | none => trivial
    | some current =>
      have hk := Table.key_of_get hv
      obtain ⟨hskill, hversion⟩ := Prod.mk.inj hk
      refine ⟨hskill, fun hstate => ?_⟩
      rw [hversion]
      exact hs₂.versions _ _ hv hstate

theorem decide_reads {current : ProcedureSkillVersion} {db : SkillDb}
    (hc : CurrentRead command.skillId db (.ok (some current)))
    (hv : current.version = command.expectedVersion) :
    Reads skillDatabase (skillContract service) (DecisionMade service command)
      (service.decide sqliteSkillStore command current) db := by
  obtain ⟨hskill, hverified⟩ := hc
  unfold SkillLifecycleService.decide
  cases ho : command.operation with
  | promote requiredOracles =>
    intro db₁ v₁ hl₁ hi₁ hs₁
    refine ⟨rfl, ?_, fun _ => trivial⟩
    intro db₂ v₂ hl₂ hi₂ hs₂
    refine ⟨rfl, ?_, fun _ => trivial⟩
    have he : v₁.evaluationsOf current.skillId current.version =
        db₂.evaluationsOf current.skillId current.version := by
      rw [SkillDb.evaluationsOf, SkillDb.evaluationsOf, hs₁.evaluations, ← hl₂.evaluations]
    change HonorsUntil _ _ _ _ (Operation.bind (SkillLifecycleService.raise
      (service.decidePromotion command requiredOracles current
        (v₁.evaluationsOf current.skillId current.version)
        (v₂.bundles.get (current.skillId, current.version)))) _) db₂
    rw [he, hs₂.bundles]
    cases hd : service.decidePromotion command requiredOracles current
        (db₂.evaluationsOf current.skillId current.version)
        (db₂.bundles.get (current.skillId, current.version)) with
    | error e => trivial
    | ok result =>
      obtain ⟨ha, rfl⟩ := decidePromotion_eq_ok hd
      refine ⟨hskill, congrArg (· + 1) hv, Or.inr ⟨rfl, requiredOracles, current, ho, ?_, ha⟩⟩
      rw [← hv]
      exact (hl₁.trans hl₂).versions _ _ (hverified ha.verified)
  | «deprecate» reason =>
    change HonorsUntil _ _ _ _ (Operation.bind (SkillLifecycleService.raise
      ((TestSkill.fromVersion current).«deprecate» command.expectedVersion
        command.idempotencyKey)) _) db
    cases hd : (TestSkill.fromVersion current).«deprecate» command.expectedVersion
        command.idempotencyKey with
    | error e => trivial
    | ok skill =>
      obtain ⟨-, hs⟩ := deprecate_eq_ok hd
      change Decided service db command skill.snapshot
      rw [hs]
      exact ⟨hskill, congrArg (· + 1) hv, Or.inl ⟨reason, ho, rfl⟩⟩

theorem replayLifecycleCommand_reads (db : SkillDb) :
    Reads skillDatabase (skillContract service) (ReplayRead service command)
      (sqliteSkillStore.replayLifecycleCommand command.idempotencyKey
        (skillLifecycleCommandHash service.platform command)) db := by
  refine honorsUntil_inTransaction fun c hl hi => ⟨fun _ => trivial, ?_⟩
  refine replay_honors.imp fun r w hs hr => ?_
  cases r with
  | error e => trivial
  | ok r =>
    cases r with
    | notFound =>
      obtain ⟨rfl, -⟩ := hr
      exact ⟨hi, Later.refl w, trivial, Or.inl rfl⟩
    | conflict resultVersion =>
      obtain rfl : w = c := hr
      exact ⟨hi, Later.refl w, trivial, Or.inl rfl⟩
    | replayed result =>
      obtain ⟨rfl, h⟩ := hr
      exact ⟨hi, Later.refl w, h, Or.inl rfl⟩

theorem apply_honors (db : SkillDb) :
    Honors skillDatabase (skillContract service) (Change service command)
      (Outcome service command)
      (service.apply sqliteSkillStore command) db := by
  unfold SkillLifecycleService.apply
  refine HonorsUntil.bind (fun _ _ => True) ?_ (fun _ db₁ _ _ => ?_) fun _ _ _ => trivial
  · unfold SkillLifecycleService.throwIfAborted
    split <;> trivial
  refine HonorsUntil.bind (ReplayRead service command) (replayLifecycleCommand_reads db₁)
    (fun r db₂ _ hr => ?_) fun _ _ _ => trivial
  cases r with
  | replayed result => exact hr
  | conflict resultVersion => trivial
  | notFound =>
    refine HonorsUntil.bind (CurrentRead command.skillId) (latestVersion_reads _ db₂)
      (fun read db₃ _ hread => ?_) fun _ _ _ => trivial
    cases hc : SkillLifecycleService.requireCurrent command read with
    | error e => trivial
    | ok current =>
      obtain ⟨rfl, hv⟩ := requireCurrent_eq_ok hc
      refine HonorsUntil.bind (DecisionMade service command) (decide_reads hread hv)
        (fun decision db₄ _ hd => ?_) fun _ _ _ => trivial
      obtain ⟨result, reason⟩ := decision
      refine HonorsUntil.bind (fun db _ => Decided service db command result) ?_
        (fun _ db₅ _ hd₅ => ?_) fun _ _ _ => trivial
      · unfold SkillLifecycleService.throwIfAborted
        split <;> exact hd
      refine honorsUntil_inTransaction fun c hl hi => ⟨fun _ => trivial, ?_⟩
      refine (commit_honors hi (Decided.later hd₅ hl) ⟨current, reason, rfl⟩).imp fun r w _ hQ => ?_
      cases r with
      | error e => trivial
      | ok result =>
        obtain ⟨hinv, hlater, hout, hchange⟩ := hQ
        exact ⟨hinv, hlater, hout, hchange.imp_right fun hc => ⟨trivial, hc⟩⟩

end Command

end Qualigence.Skill
