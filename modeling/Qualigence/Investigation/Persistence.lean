import Mathlib.Data.List.Range
import Mathlib.Data.List.Sort
import Qualigence.Foundation.Table
import Qualigence.Investigation.History

/-! # Cases in the database

A case is stored as a row with its version, and its attempts, its bug episode and its handoff are
rows that are inserted once and never changed. A write is refused when the stored version is not the
one that the writer saw. The transitions of a case are not stored.
-/

namespace Qualigence.Investigation

open Foundation InvestigationStatus

/-- A row of `investigation_cases`. -/
structure InvestigationRow where
  caseId : String
  findingId : String
  projectId : String
  status : InvestigationStatus
  version : ℕ
  planRevision : ℕ
  budget : InvestigationBudget
  usage : InvestigationBudgetUsage ℚ
  bugEpisodeId : Option String
  deriving DecidableEq

/-- The place of an attempt in its case. -/
def ReproductionAttempt.place (attempt : ReproductionAttempt) : String × ℕ :=
  (attempt.caseId, attempt.ordinal)

/-- The tables with their keys, the unique places of the attempts and the references to cases. -/
structure InvestigationTables where
  cases : Table InvestigationRow fun row => row.caseId
  attempts : Table ReproductionAttempt fun attempt => attempt.attemptId
  episodes : Table BugEpisode fun episode => episode.episodeId
  handoffs : Table HumanHandoff fun handoff => handoff.caseId
  places : (attempts.rows.map (·.place)).Nodup
  attemptOf : ∀ attempt ∈ attempts.rows, (cases.get attempt.caseId).isSome
  episodeOf : ∀ episode ∈ episodes.rows, (cases.get episode.caseId).isSome
  handoffOf : ∀ handoff ∈ handoffs.rows, (cases.get handoff.caseId).isSome

inductive StoreError where
  | versionConflict (caseId : String) (expectedVersion storedVersion : ℕ)
  | constraint
  deriving DecidableEq

namespace InvestigationCase

/-- What is left of a case that is read back. -/
def restored (c : InvestigationCase) : InvestigationCase := { c with transitions := [] }

def head (c : InvestigationCase) : InvestigationRow where
  caseId := c.caseId
  findingId := c.findingId
  projectId := c.projectId
  status := c.status
  version := c.version
  planRevision := c.planRevision
  budget := c.budget
  usage := c.usage
  bugEpisodeId := c.bugEpisode.map (·.episodeId)

end InvestigationCase

namespace InvestigationTables

def empty : InvestigationTables where
  cases := .empty
  attempts := .empty
  episodes := .empty
  handoffs := .empty
  places := List.nodup_nil
  attemptOf _ h := absurd h List.not_mem_nil
  episodeOf _ h := absurd h List.not_mem_nil
  handoffOf _ h := absurd h List.not_mem_nil

variable (db : InvestigationTables)

def storedVersion (caseId : String) : ℕ := ((db.cases.get caseId).map (·.version)).getD 0

/-- The row of a new case, or the new values of its row. -/
def writtenCases (c : InvestigationCase) : Table InvestigationRow fun row => row.caseId :=
  match db.cases.insert c.head with
  | some cases => cases
  | none =>
    db.cases.update (fun row => decide (row.caseId = c.caseId))
      (fun row => { c.head with
        caseId := row.caseId, findingId := row.findingId, projectId := row.projectId })
      fun _ => rfl

theorem isSome_writtenCases {c : InvestigationCase} {caseId : String}
    (h : (db.cases.get caseId).isSome) : ((db.writtenCases c).get caseId).isSome := by
  obtain ⟨row, hrow⟩ := Option.isSome_iff_exists.mp h
  unfold writtenCases
  split
  · next cases hinsert => rw [Table.get_of_insert_of_get hinsert hrow, Option.isSome_some]
  · rw [Table.get_update, hrow, Option.map_some, Option.isSome_some]

def writeHead (c : InvestigationCase) : InvestigationTables :=
  { db with
    cases := db.writtenCases c
    attemptOf := fun attempt h => db.isSome_writtenCases (db.attemptOf attempt h)
    episodeOf := fun episode h => db.isSome_writtenCases (db.episodeOf episode h)
    handoffOf := fun handoff h => db.isSome_writtenCases (db.handoffOf handoff h) }

/-- `ON CONFLICT (attempt_id) DO NOTHING` -/
def insertAttempt (attempt : ReproductionAttempt) : Except StoreError InvestigationTables :=
  match db.attempts.insert attempt with
  | none => .ok db
  | some attempts =>
    if h : (attempts.rows.map (·.place)).Nodup ∧
        ∀ attempt ∈ attempts.rows, (db.cases.get attempt.caseId).isSome then
      .ok { db with attempts := attempts, places := h.1, attemptOf := h.2 }
    else .error .constraint

def insertAttempts (db : InvestigationTables) :
    List ReproductionAttempt → Except StoreError InvestigationTables
  | [] => .ok db
  | attempt :: attempts =>
    match db.insertAttempt attempt with
    | .error error => .error error
    | .ok db => insertAttempts db attempts

/-- `ON CONFLICT (episode_id) DO NOTHING` -/
def insertEpisode (episode : BugEpisode) : Except StoreError InvestigationTables :=
  match db.episodes.insert episode with
  | none => .ok db
  | some episodes =>
    if h : ∀ episode ∈ episodes.rows, (db.cases.get episode.caseId).isSome then
      .ok { db with episodes := episodes, episodeOf := h }
    else .error .constraint

/-- `ON CONFLICT (case_id) DO NOTHING` -/
def insertHandoff (handoff : HumanHandoff) : Except StoreError InvestigationTables :=
  match db.handoffs.insert handoff with
  | none => .ok db
  | some handoffs =>
    if h : ∀ handoff ∈ handoffs.rows, (db.cases.get handoff.caseId).isSome then
      .ok { db with handoffs := handoffs, handoffOf := h }
    else .error .constraint

def writeEpisode (c : InvestigationCase) : Except StoreError InvestigationTables :=
  match c.bugEpisode with
  | none => .ok db
  | some episode => db.insertEpisode episode

def writeHandoff (c : InvestigationCase) : Except StoreError InvestigationTables :=
  match c.handoff with
  | none => .ok db
  | some handoff => db.insertHandoff handoff

/-- One transaction: an error leaves the tables as they were. -/
def save (c : InvestigationCase) (expectedVersion : ℕ) : Except StoreError InvestigationTables :=
  if db.storedVersion c.caseId ≠ expectedVersion then
    .error (.versionConflict c.caseId expectedVersion (db.storedVersion c.caseId))
  else do
    let db ← (db.writeHead c).insertAttempts c.attempts
    let db ← db.writeEpisode c
    db.writeHandoff c

/-- The attempts of a case in the order of their numbers. -/
def attemptsOf (caseId : String) : List ReproductionAttempt :=
  (db.attempts.rows.filter fun attempt =>
    decide (attempt.caseId = caseId)).insertionSort fun a b => a.ordinal ≤ b.ordinal

def load (caseId : String) : Option InvestigationCase :=
  (db.cases.get caseId).map fun head =>
    { caseId := head.caseId
      findingId := head.findingId
      projectId := head.projectId
      budget := head.budget
      usage := head.usage
      version := head.version
      status := head.status
      planRevision := head.planRevision
      bugEpisode := head.bugEpisodeId.bind fun episodeId => db.episodes.get episodeId
      handoff := db.handoffs.get caseId
      attempts := db.attemptsOf caseId
      transitions := [] }

end InvestigationTables

namespace InvestigationCase

variable {c c' c'' : InvestigationCase}

/-! ## Cases that can be stored -/

/-- The attempts are numbered, the handoff is of the case and the case has ended with its bug
episode or its handoff. -/
structure Storable (c : InvestigationCase) : Prop where
  ordinals : c.attempts.map (·.ordinal) = List.range' 1 c.attempts.length
  own : ∀ attempt ∈ c.attempts, attempt.caseId = c.caseId
  handoff : ∀ handoff ∈ c.handoff, handoff.caseId = c.caseId
  episode : ∀ episode ∈ c.bugEpisode, episode.caseId = c.caseId
  ended : c.bugEpisode.isSome ∨ c.handoff.isSome → 3 ≤ c.status.rank

/-- The later state of a case has what the earlier one had. -/
structure Extends (c c' : InvestigationCase) : Prop where
  caseId : c'.caseId = c.caseId
  findingId : c'.findingId = c.findingId
  projectId : c'.projectId = c.projectId
  attempts : c.attempts <+: c'.attempts
  bugEpisode : c.bugEpisode.isSome → c'.bugEpisode = c.bugEpisode
  handoff : c.handoff.isSome → c'.handoff = c.handoff

theorem Extends.refl (c : InvestigationCase) : c.Extends c :=
  ⟨rfl, rfl, rfl, List.prefix_rfl, fun _ => rfl, fun _ => rfl⟩

theorem Extends.trans (h : c.Extends c') (h' : c'.Extends c'') : c.Extends c'' where
  caseId := h'.caseId.trans h.caseId
  findingId := h'.findingId.trans h.findingId
  projectId := h'.projectId.trans h.projectId
  attempts := h.attempts.trans h'.attempts
  bugEpisode hs := (h'.bugEpisode ((h.bugEpisode hs).symm ▸ hs)).trans (h.bugEpisode hs)
  handoff hs := (h'.handoff ((h.handoff hs).symm ▸ hs)).trans (h.handoff hs)

theorem storable_opened (caseId findingId projectId : String) (budget : InvestigationBudget) :
    (opened caseId findingId projectId budget).Storable where
  ordinals := rfl
  own _ h := absurd h List.not_mem_nil
  handoff _ h := by cases h
  episode _ h := by cases h
  ended h := by rcases h with h | h <;> cases h

theorem Storable.pairwise (h : c.Storable) :
    c.attempts.Pairwise fun a b => a.ordinal < b.ordinal := by
  have hrange : (c.attempts.map (·.ordinal)).Pairwise (· < ·) := by
    rw [h.ordinals]
    exact List.pairwise_lt_range'
  exact List.pairwise_map.mp hrange

theorem Storable.restored (h : c.Storable) : c.restored.Storable :=
  ⟨h.ordinals, h.own, h.handoff, h.episode, h.ended⟩

theorem extends_restored (c : InvestigationCase) : c.Extends c.restored :=
  ⟨rfl, rfl, rfl, List.prefix_rfl, fun _ => rfl, fun _ => rfl⟩

theorem Grows.attempts_prefix (h : c.Grows c') : c.attempts <+: c'.attempts := by
  rcases h.attempts with he | ⟨draft, he⟩
  · exact ⟨[], (List.append_nil _).trans he.symm⟩
  · exact ⟨_, he.symm⟩

theorem Storable.ordinals_later (h : c.Storable) (hg : c.Grows c') :
    c'.attempts.map (·.ordinal) = List.range' 1 c'.attempts.length := by
  rcases hg.attempts with he | ⟨draft, he⟩ <;> rw [he]
  · exact h.ordinals
  · rw [List.map_append, h.ordinals, List.length_append, List.length_singleton,
      List.range'_1_concat, List.map_singleton, Nat.add_comm 1]
    rfl

theorem Storable.own_later (h : c.Storable) (hg : c.Grows c') :
    ∀ attempt ∈ c'.attempts, attempt.caseId = c'.caseId := by
  rw [hg.caseId]
  rcases hg.attempts with he | ⟨draft, he⟩ <;> rw [he]
  · exact h.own
  · intro attempt hmem
    rcases List.mem_append.mp hmem with hmem | hmem
    · exact h.own attempt hmem
    · rw [List.mem_singleton.mp hmem]
      rfl

/-- A case that has ended leads to no verdict. -/
theorem rank_of_leads {t : InvestigationTransition} (ht : c.Commits command t c')
    (h : t.toStatus = .confirmed ∨ t.toStatus = .needs_human) : c.status.rank < 3 := by
  have hleads := ht.leads
  generalize c.status = s at hleads
  rcases h with h | h <;> rw [h] at hleads <;> cases hleads <;> decide

theorem Storable.committed {t : InvestigationTransition} (h : c.Storable)
    (ht : c.Commits command t c') : c'.Storable ∧ c.Extends c' := by
  have hrank : c.status.rank ≤ c'.status.rank := by
    rw [ht.status]
    exact ht.leads.rank_le
  refine ⟨⟨h.ordinals_later ht.toGrows, h.own_later ht.toGrows, ?_, ?_, ?_⟩,
    ⟨ht.caseId, ht.findingId, ht.projectId, ht.toGrows.attempts_prefix, ?_, ?_⟩⟩
  · rw [ht.caseId]
    rcases ht.handoff with ⟨-, handoff, hsome, hown⟩ | ⟨-, hsame⟩
    · rw [hsome]
      rintro _ ⟨⟩
      exact hown
    · rw [hsame]
      exact h.handoff
  · rw [ht.caseId]
    rcases ht.bugEpisode with ⟨-, episode, hsome, hbacks⟩ | ⟨-, hsame⟩
    · rw [hsome]
      rintro _ ⟨⟩
      exact hbacks.own.1
    · rw [hsame]
      exact h.episode
  · rcases ht.bugEpisode with ⟨hto, -⟩ | ⟨-, hepisode⟩
    · rw [ht.status, hto]
      exact fun _ => le_rfl
    · rcases ht.handoff with ⟨hto, -⟩ | ⟨-, hhandoff⟩
      · rw [ht.status, hto]
        exact fun _ => le_rfl
      · rw [hepisode, hhandoff]
        exact fun hs => (h.ended hs).trans hrank
  · intro hs
    rcases ht.bugEpisode with ⟨hto, -⟩ | ⟨-, hsame⟩
    · have hended := h.ended (.inl hs)
      have hlt := rank_of_leads ht (.inl hto)
      omega
    · exact hsame
  · intro hs
    rcases ht.handoff with ⟨hto, -⟩ | ⟨-, hsame⟩
    · have hended := h.ended (.inr hs)
      have hlt := rank_of_leads ht (.inr hto)
      omega
    · exact hsame

theorem Storable.next (h : c.Storable) (command : InvestigationCommand) :
    (c.next command).Storable ∧ c.Extends (c.next command) := by
  have hdoes := does_apply c command
  rw [InvestigationCase.next]
  generalize c.apply command = outcome at hdoes ⊢
  cases hdoes with
  | answers _ => exact ⟨h, .refl c⟩
  | commits ht => exact h.committed ht
  | @refuses error c' _ hr =>
    refine ⟨⟨h.ordinals_later hr.toGrows, h.own_later hr.toGrows, ?_, ?_, ?_⟩,
      ⟨hr.caseId, hr.findingId, hr.projectId, hr.toGrows.attempts_prefix, fun _ => hr.bugEpisode,
        fun _ => hr.handoff⟩⟩
    · rw [hr.caseId, hr.handoff]
      exact h.handoff
    · rw [hr.caseId, hr.bugEpisode]
      exact h.episode
    · rw [hr.bugEpisode, hr.handoff, hr.status]
      exact h.ended

end InvestigationCase

/-! ## What a write does -/

namespace InvestigationTables

open InvestigationCase

variable {db : InvestigationTables} {c : InvestigationCase} {caseId : String}

/-- The bug episode that a row names is there. -/
def Complete (db : InvestigationTables) : Prop :=
  ∀ caseId row, db.cases.get caseId = some row →
    ∀ id, row.bugEpisodeId = some id → (db.episodes.get id).isSome

/-- No other attempt and no other bug episode has an id of the case. -/
structure Identified (db : InvestigationTables) (c : InvestigationCase) : Prop where
  ids : (c.attempts.map (·.attemptId)).Nodup
  attempts : ∀ attempt ∈ c.attempts, ∀ row ∈ db.attempts.rows,
    row.attemptId = attempt.attemptId → row = attempt
  episode : ∀ episode ∈ c.bugEpisode, ∀ row ∈ db.episodes.rows,
    row.episodeId = episode.episodeId → row = episode

instance (db : InvestigationTables) (c : InvestigationCase) : Decidable (db.Identified c) :=
  decidable_of_iff
    ((c.attempts.map (·.attemptId)).Nodup ∧
      (∀ attempt ∈ c.attempts, ∀ row ∈ db.attempts.rows,
        row.attemptId = attempt.attemptId → row = attempt) ∧
      ∀ episode ∈ c.bugEpisode, ∀ row ∈ db.episodes.rows,
        row.episodeId = episode.episodeId → row = episode)
    ⟨fun h => ⟨h.1, h.2.1, h.2.2⟩, fun h => ⟨h.ids, h.attempts, h.episode⟩⟩

theorem mem_attemptsOf {attempt : ReproductionAttempt} :
    attempt ∈ db.attemptsOf caseId ↔ attempt ∈ db.attempts.rows ∧ attempt.caseId = caseId := by
  rw [attemptsOf, List.mem_insertionSort, List.mem_filter, decide_eq_true_iff]

/-- Attempts in the order of their numbers are read in this order, however they are stored. -/
theorem attemptsOf_eq {attempts : List ReproductionAttempt}
    (hperm : (db.attempts.rows.filter fun attempt => decide (attempt.caseId = caseId)).Perm
      attempts)
    (hsorted : attempts.Pairwise fun a b => a.ordinal < b.ordinal) :
    db.attemptsOf caseId = attempts := by
  have htotal : Std.Total fun a b : ReproductionAttempt => a.ordinal ≤ b.ordinal :=
    ⟨fun a b => le_total a.ordinal b.ordinal⟩
  have htrans : IsTrans ReproductionAttempt fun a b => a.ordinal ≤ b.ordinal :=
    ⟨fun _ _ _ hab hbc => le_trans hab hbc⟩
  have hnodup : (attempts.map (·.ordinal)).Nodup := by
    rw [List.Nodup, List.pairwise_map]
    exact hsorted.imp fun h => h.ne
  refine List.Perm.eq_of_pairwise ?_ (List.pairwise_insertionSort _ _)
    (hsorted.imp fun h => h.le) ((List.perm_insertionSort _ _).trans hperm)
  intro a b ha hb hab hba
  have ha' : a ∈ attempts := hperm.mem_iff.mp ((List.mem_insertionSort _).mp ha)
  exact List.inj_on_of_nodup_map hnodup ha' hb (le_antisymm hab hba)

theorem get_writtenCases_other (h : caseId ≠ c.caseId) :
    (db.writtenCases c).get caseId = db.cases.get caseId := by
  unfold writtenCases
  split
  · next cases hinsert =>
    rw [Table.get_of_insert hinsert, if_neg]
    exact fun he => h he.symm
  · rw [Table.get_update]
    cases hg : db.cases.get caseId with
    | none => rfl
    | some row =>
      have hkey : row.caseId = caseId := Table.key_of_get hg
      rw [Option.map_some, if_neg]
      rw [decide_eq_true_iff, hkey]
      exact h

/-- The row of a case that continues what is stored has the values of the case. -/
theorem get_writtenCases_own (h : ∀ c₀, db.load c.caseId = some c₀ → c₀.Extends c) :
    (db.writtenCases c).get c.caseId = some c.head := by
  unfold writtenCases
  split
  · next cases hinsert =>
    rw [Table.get_of_insert hinsert, if_pos]
    rfl
  · next hinsert =>
    have hsome : (db.cases.get c.caseId).isSome := Table.insert_eq_none_iff.mp hinsert
    obtain ⟨row, hrow⟩ := Option.isSome_iff_exists.mp hsome
    have hkey : row.caseId = c.caseId := Table.key_of_get hrow
    have hext := h _ ((congrArg (Option.map _) hrow).trans rfl)
    rw [Table.get_update, hrow, Option.map_some, if_pos (decide_eq_true hkey)]
    have hfinding : c.findingId = row.findingId := hext.findingId
    have hproject : c.projectId = row.projectId := hext.projectId
    rw [hkey, ← hfinding, ← hproject]
    rfl

theorem insertAttempt_of_taken {attempt : ReproductionAttempt}
    (h : attempt ∈ db.attempts.rows) : db.insertAttempt attempt = .ok db := by
  have hnone : db.attempts.insert attempt = none := by
    rw [Table.insert_eq_none_iff, Table.get_eq_some_iff.mpr ⟨h, rfl⟩, Option.isSome_some]
  rw [insertAttempt, hnone]

theorem insertAttempts_of_taken {attempts : List ReproductionAttempt}
    (h : ∀ attempt ∈ attempts, attempt ∈ db.attempts.rows) :
    db.insertAttempts attempts = .ok db := by
  induction attempts with
  | nil => rfl
  | cons attempt attempts ih =>
    rw [insertAttempts, insertAttempt_of_taken (h attempt List.mem_cons_self)]
    exact ih fun other hother => h other (List.mem_cons_of_mem _ hother)

theorem insertAttempts_append (db : InvestigationTables)
    (past later : List ReproductionAttempt) :
    db.insertAttempts (past ++ later) =
      (db.insertAttempts past).bind fun db => db.insertAttempts later := by
  induction past generalizing db with
  | nil => rfl
  | cons attempt past ih =>
    rw [List.cons_append, insertAttempts, insertAttempts]
    cases db.insertAttempt attempt with
    | error error => rfl
    | ok db => exact ih db

/-- The other tables are the same. -/
structure Appended (db : InvestigationTables) (attempts : List ReproductionAttempt)
    (db' : InvestigationTables) : Prop where
  cases : db'.cases = db.cases
  rows : db'.attempts.rows = db.attempts.rows ++ attempts
  episodes : db'.episodes = db.episodes
  handoffs : db'.handoffs = db.handoffs

/-- New attempts of a stored case are appended. -/
theorem insertAttempts_of_new {attempts : List ReproductionAttempt}
    (hids : ((db.attempts.rows ++ attempts).map (·.attemptId)).Nodup)
    (hplaces : ((db.attempts.rows ++ attempts).map (·.place)).Nodup)
    (hcases : ∀ attempt ∈ attempts, (db.cases.get attempt.caseId).isSome) :
    ∃ db', db.insertAttempts attempts = .ok db' ∧ db.Appended attempts db' := by
  induction attempts generalizing db with
  | nil => exact ⟨db, rfl, rfl, (List.append_nil _).symm, rfl, rfl⟩
  | cons attempt attempts ih =>
    rw [List.append_cons] at hids hplaces
    have hfree : db.attempts.get attempt.attemptId = none := by
      rw [Table.get_eq_none_iff]
      intro row hrow he
      rw [List.map_append, List.map_append] at hids
      have hdisjoint := List.disjoint_of_nodup_append (List.Nodup.of_append_left hids)
      refine hdisjoint (List.mem_map_of_mem hrow) ?_
      rw [List.map_singleton, List.mem_singleton]
      exact he
    obtain ⟨table, htable⟩ := Table.exists_insert hfree
    have hrows : table.rows = db.attempts.rows ++ [attempt] := Table.rows_of_insert htable
    have hok : (table.rows.map (·.place)).Nodup ∧
        ∀ attempt ∈ table.rows, (db.cases.get attempt.caseId).isSome := by
      rw [hrows]
      constructor
      · rw [List.map_append] at hplaces
        exact List.Nodup.of_append_left hplaces
      · intro other hother
        rcases List.mem_append.mp hother with hother | hother
        · exact db.attemptOf other hother
        · rw [List.mem_singleton.mp hother]
          exact hcases attempt List.mem_cons_self
    have hinsert : db.insertAttempt attempt =
        .ok { db with attempts := table, places := hok.1, attemptOf := hok.2 } := by
      rw [insertAttempt, htable]
      exact dif_pos hok
    rw [insertAttempts, hinsert]
    obtain ⟨db', hdb', happended⟩ :=
      @ih { db with attempts := table, places := hok.1, attemptOf := hok.2 }
        (by rw [hrows]; exact hids) (by rw [hrows]; exact hplaces)
        fun other hother => hcases other (List.mem_cons_of_mem _ hother)
    refine ⟨db', hdb', happended.cases, ?_, happended.episodes, happended.handoffs⟩
    rw [happended.rows, hrows, List.append_assoc]
    rfl

/-- A bug episode whose id is its own is stored, and those that are stored stay. -/
theorem insertEpisode_spec {episode : BugEpisode}
    (hcase : (db.cases.get episode.caseId).isSome)
    (hown : ∀ row ∈ db.episodes.rows, row.episodeId = episode.episodeId → row = episode) :
    ∃ db', db.insertEpisode episode = .ok db' ∧ db'.cases = db.cases ∧
      db'.attempts = db.attempts ∧ db'.handoffs = db.handoffs ∧
      db'.episodes.get episode.episodeId = some episode ∧
      ∀ id row, db.episodes.get id = some row → db'.episodes.get id = some row := by
  unfold insertEpisode
  cases hinsert : db.episodes.insert episode with
  | none =>
    obtain ⟨row, hrow⟩ := Option.isSome_iff_exists.mp (Table.insert_eq_none_iff.mp hinsert)
    have hkey := Table.key_of_get hrow
    have he : row = episode := hown row (Table.mem_of_get hrow) hkey
    exact ⟨db, rfl, rfl, rfl, rfl, he ▸ hrow, fun _ _ h => h⟩
  | some table =>
    have hok : ∀ episode ∈ table.rows, (db.cases.get episode.caseId).isSome := by
      rw [Table.rows_of_insert hinsert]
      intro other hother
      rcases List.mem_append.mp hother with hother | hother
      · exact db.episodeOf other hother
      · rw [List.mem_singleton.mp hother]
        exact hcase
    refine ⟨_, dif_pos hok, rfl, rfl, rfl, ?_, fun _ _ h =>
      Table.get_of_insert_of_get hinsert h⟩
    exact (Table.get_of_insert hinsert).trans (if_pos rfl)

/-- The handoff of a case is stored when the case has no other. -/
theorem insertHandoff_spec {handoff : HumanHandoff}
    (hcase : (db.cases.get handoff.caseId).isSome)
    (hown : ∀ row, db.handoffs.get handoff.caseId = some row → row = handoff) :
    ∃ db', db.insertHandoff handoff = .ok db' ∧ db'.cases = db.cases ∧
      db'.attempts = db.attempts ∧ db'.episodes = db.episodes ∧
      db'.handoffs.get handoff.caseId = some handoff ∧
      ∀ id, id ≠ handoff.caseId → db'.handoffs.get id = db.handoffs.get id := by
  unfold insertHandoff
  cases hinsert : db.handoffs.insert handoff with
  | none =>
    obtain ⟨row, hrow⟩ := Option.isSome_iff_exists.mp (Table.insert_eq_none_iff.mp hinsert)
    exact ⟨db, rfl, rfl, rfl, rfl, hown row hrow ▸ hrow, fun _ _ => rfl⟩
  | some table =>
    have hok : ∀ handoff ∈ table.rows, (db.cases.get handoff.caseId).isSome := by
      rw [Table.rows_of_insert hinsert]
      intro other hother
      rcases List.mem_append.mp hother with hother | hother
      · exact db.handoffOf other hother
      · rw [List.mem_singleton.mp hother]
        exact hcase
    refine ⟨_, dif_pos hok, rfl, rfl, rfl, ?_, ?_⟩
    · exact (Table.get_of_insert hinsert).trans (if_pos rfl)
    · exact fun id hid => (Table.get_of_insert hinsert).trans (if_neg fun he => hid he.symm)

/-- The stored attempts come first in a case that continues what is stored. -/
theorem attemptsOf_initial (h : ∀ c₀, db.load c.caseId = some c₀ → c₀.Extends c) :
    db.attemptsOf c.caseId <+: c.attempts := by
  cases hrow : db.cases.get c.caseId with
  | none =>
    have hnil : db.attemptsOf c.caseId = [] := by
      rw [List.eq_nil_iff_forall_not_mem]
      intro attempt hmem
      obtain ⟨hrows, hown⟩ := mem_attemptsOf.mp hmem
      have hsome := db.attemptOf attempt hrows
      rw [hown, hrow] at hsome
      cases hsome
    rw [hnil]
    exact List.nil_prefix
  | some row => exact (h _ (congrArg (Option.map _) hrow)).attempts

theorem handoff_of_load (h : ∀ c₀, db.load c.caseId = some c₀ → c₀.Extends c)
    {handoff : HumanHandoff} (hget : db.handoffs.get c.caseId = some handoff) :
    c.handoff = some handoff := by
  have hsome := db.handoffOf handoff (Table.mem_of_get hget)
  rw [Table.key_of_get hget] at hsome
  obtain ⟨row, hrow⟩ := Option.isSome_iff_exists.mp hsome
  have hext := h _ (congrArg (Option.map _) hrow)
  have hread : db.handoffs.get c.caseId = some handoff := hget
  exact (hext.handoff (by dsimp only; rw [hread, Option.isSome_some])).trans hread

/-- The attempts of a case that continues what is stored are stored. -/
theorem insertAttempts_spec (hc : c.Storable) (hid : db.Identified c)
    (hpast : db.attemptsOf c.caseId <+: c.attempts)
    (hcase : (db.cases.get c.caseId).isSome) :
    ∃ db', db.insertAttempts c.attempts = .ok db' ∧ db'.cases = db.cases ∧
      db'.episodes = db.episodes ∧ db'.handoffs = db.handoffs ∧
      db'.attemptsOf c.caseId = c.attempts ∧
      ∀ id, id ≠ c.caseId → db'.attemptsOf id = db.attemptsOf id := by
  obtain ⟨later, hlater⟩ := hpast
  have hown : ∀ attempt ∈ later, attempt.caseId = c.caseId := fun attempt hmem =>
    hc.own attempt (hlater ▸ List.mem_append_right _ hmem)
  have hordinals : (c.attempts.map (·.ordinal)).Nodup := by
    rw [hc.ordinals]
    exact List.nodup_range'
  have hids := hid.ids
  rw [← hlater, List.map_append] at hordinals hids
  have hnew : ∀ attempt ∈ later, ∀ row ∈ db.attempts.rows,
      row.attemptId ≠ attempt.attemptId := by
    intro attempt hmem row hrow he
    have hsame := hid.attempts attempt (hlater ▸ List.mem_append_right _ hmem) row hrow he
    have hstored : attempt ∈ db.attemptsOf c.caseId :=
      mem_attemptsOf.mpr ⟨hsame ▸ hrow, hown attempt hmem⟩
    exact List.disjoint_of_nodup_append hids (List.mem_map_of_mem hstored)
      (List.mem_map_of_mem hmem)
  have hplaces : ((db.attempts.rows ++ later).map (·.place)).Nodup := by
    rw [List.map_append, List.nodup_append']
    refine ⟨db.places, ?_, ?_⟩
    · exact List.Nodup.of_map Prod.snd (by
        rw [List.map_map]
        exact List.Nodup.of_append_right hordinals)
    · intro place hplace hplace'
      obtain ⟨row, hrow, rfl⟩ := List.mem_map.mp hplace
      obtain ⟨attempt, hmem, he⟩ := List.mem_map.mp hplace'
      have hcaseId : attempt.caseId = row.caseId := congrArg Prod.fst he
      have hordinal : attempt.ordinal = row.ordinal := congrArg Prod.snd he
      have hstored : row ∈ db.attemptsOf c.caseId :=
        mem_attemptsOf.mpr ⟨hrow, hcaseId.symm.trans (hown attempt hmem)⟩
      exact List.disjoint_of_nodup_append hordinals
        (List.mem_map_of_mem (f := fun attempt => attempt.ordinal) hstored)
        (List.mem_map.mpr ⟨attempt, hmem, hordinal⟩)
  have hrowids : ((db.attempts.rows ++ later).map (·.attemptId)).Nodup := by
    rw [List.map_append, List.nodup_append']
    refine ⟨db.attempts.nodup, List.Nodup.of_append_right hids, ?_⟩
    intro id hmem hmem'
    obtain ⟨row, hrow, rfl⟩ := List.mem_map.mp hmem
    obtain ⟨attempt, hattempt, he⟩ := List.mem_map.mp hmem'
    exact hnew attempt hattempt row hrow he.symm
  obtain ⟨db', hdb', happended⟩ := insertAttempts_of_new hrowids hplaces
    fun attempt hmem => (hown attempt hmem).symm ▸ hcase
  refine ⟨db', ?_, happended.cases, happended.episodes, happended.handoffs, ?_, ?_⟩
  · rw [← hlater, insertAttempts_append,
      insertAttempts_of_taken fun attempt hmem => (mem_attemptsOf.mp hmem).1]
    exact hdb'
  · refine attemptsOf_eq ?_ hc.pairwise
    rw [happended.rows, List.filter_append, ← hlater]
    refine List.Perm.append (List.perm_insertionSort _ _).symm (List.Perm.of_eq ?_)
    rw [List.filter_eq_self]
    exact fun attempt hmem => decide_eq_true (hown attempt hmem)
  · intro id hne
    have hnone : later.filter (fun attempt => decide (attempt.caseId = id)) = [] := by
      rw [List.filter_eq_nil_iff]
      intro attempt hmem
      rw [decide_eq_true_iff, hown attempt hmem]
      exact fun he => hne he.symm
    rw [attemptsOf, attemptsOf, happended.rows, List.filter_append, hnone, List.append_nil]

theorem writeEpisode_spec (hc : c.Storable) (hcase : (db.cases.get c.caseId).isSome)
    (hown : ∀ episode ∈ c.bugEpisode, ∀ row ∈ db.episodes.rows,
      row.episodeId = episode.episodeId → row = episode) :
    ∃ db', db.writeEpisode c = .ok db' ∧ db'.cases = db.cases ∧ db'.attempts = db.attempts ∧
      db'.handoffs = db.handoffs ∧
      (∀ episode ∈ c.bugEpisode, db'.episodes.get episode.episodeId = some episode) ∧
      ∀ id row, db.episodes.get id = some row → db'.episodes.get id = some row := by
  unfold writeEpisode
  cases he : c.bugEpisode with
  | none => exact ⟨db, rfl, rfl, rfl, rfl, (fun _ h => by cases h), fun _ _ h => h⟩
  | some episode =>
    obtain ⟨db', hdb', hcases, hattempts, hhandoffs, hget, hkept⟩ := insertEpisode_spec
      ((hc.episode episode he).symm ▸ hcase) (hown episode he)
    refine ⟨db', hdb', hcases, hattempts, hhandoffs, ?_, hkept⟩
    rintro _ ⟨⟩
    exact hget

theorem writeHandoff_spec (hc : c.Storable) (hcase : (db.cases.get c.caseId).isSome)
    (hown : ∀ row, db.handoffs.get c.caseId = some row → c.handoff = some row) :
    ∃ db', db.writeHandoff c = .ok db' ∧ db'.cases = db.cases ∧ db'.attempts = db.attempts ∧
      db'.episodes = db.episodes ∧ db'.handoffs.get c.caseId = c.handoff ∧
      ∀ id, id ≠ c.caseId → db'.handoffs.get id = db.handoffs.get id := by
  unfold writeHandoff
  cases hh : c.handoff with
  | none =>
    refine ⟨db, rfl, rfl, rfl, rfl, ?_, fun _ _ => rfl⟩
    cases hget : db.handoffs.get c.caseId with
    | none => rfl
    | some row => exact absurd (hh.symm.trans (hown row hget)) (by simp)
  | some handoff =>
    have hkey : handoff.caseId = c.caseId := hc.handoff handoff hh
    have hstored : (db.cases.get handoff.caseId).isSome := hkey.symm ▸ hcase
    obtain ⟨db', hdb', hcases, hattempts, hepisodes, hget, hother⟩ :=
      insertHandoff_spec hstored fun row hrow =>
        Option.some.inj ((hown row (hkey ▸ hrow)).symm.trans hh)
    rw [hkey] at hget hother
    exact ⟨db', hdb', hcases, hattempts, hepisodes, hget, hother⟩

theorem attemptsOf_congr {db' : InvestigationTables} (h : db'.attempts = db.attempts)
    (caseId : String) : db'.attemptsOf caseId = db.attemptsOf caseId := by
  rw [attemptsOf, attemptsOf, h]

/-- A case that continues what is stored under its id is stored as it is, but for its transitions,
and nothing else changes. -/
theorem save_stores (hdb : db.Complete) (hc : c.Storable) (hid : db.Identified c)
    (h : ∀ c₀, db.load c.caseId = some c₀ → c₀.Extends c) :
    ∃ db', db.save c (db.storedVersion c.caseId) = .ok db' ∧ db'.Complete ∧
      db'.load c.caseId = some c.restored ∧
      ∀ id, id ≠ c.caseId → db'.load id = db.load id := by
  have hhead : (db.writeHead c).cases.get c.caseId = some c.head := get_writtenCases_own h
  have hcase : ((db.writeHead c).cases.get c.caseId).isSome := hhead ▸ rfl
  have hwritten : (db.writeHead c).Identified c := ⟨hid.ids, hid.attempts, hid.episode⟩
  have hpast := attemptsOf_initial h
  obtain ⟨db₁, hdb₁, hcases₁, hepisodes₁, hhandoffs₁, hown₁, hother₁⟩ :=
    insertAttempts_spec hc hwritten hpast hcase
  have hcase₁ : (db₁.cases.get c.caseId).isSome := hcases₁.symm ▸ hcase
  obtain ⟨db₂, hdb₂, hcases₂, hattempts₂, hhandoffs₂, hown₂, hkept₂⟩ :=
    writeEpisode_spec hc hcase₁ (hepisodes₁.symm ▸ hid.episode)
  have hcase₂ : (db₂.cases.get c.caseId).isSome := hcases₂.symm ▸ hcase₁
  obtain ⟨db₃, hdb₃, hcases₃, hattempts₃, hepisodes₃, hown₃, hother₃⟩ :=
    writeHandoff_spec hc hcase₂ (by
      rw [hhandoffs₂, hhandoffs₁]
      exact fun row hrow => handoff_of_load h hrow)
  have hcases : ∀ id, db₃.cases.get id = (db.writtenCases c).get id := fun id => by
    rw [hcases₃, hcases₂, hcases₁]
    rfl
  have hattempts : ∀ id, db₃.attemptsOf id = db₁.attemptsOf id :=
    attemptsOf_congr (hattempts₃.trans hattempts₂)
  have hepisode : ∀ id row, db.episodes.get id = some row → db₃.episodes.get id = some row := by
    intro id row hrow
    rw [hepisodes₃]
    exact hkept₂ id row (hepisodes₁.symm ▸ hrow)
  refine ⟨db₃, ?_, ?_, ?_, ?_⟩
  · rw [save, if_neg (not_not.mpr rfl), hdb₁]
    change ((db₁.writeEpisode c).bind fun db => db.writeHandoff c) = _
    rw [hdb₂]
    exact hdb₃
  · intro id row hrow episodeId hepisodeId
    rw [hcases] at hrow
    by_cases hkey : id = c.caseId
    · subst hkey
      rw [get_writtenCases_own h] at hrow
      cases hrow
      obtain ⟨episode, he, rfl⟩ := Option.map_eq_some_iff.mp hepisodeId
      rw [hepisodes₃, hown₂ episode he, Option.isSome_some]
    · rw [get_writtenCases_other hkey] at hrow
      obtain ⟨episode, he⟩ := Option.isSome_iff_exists.mp (hdb id row hrow episodeId hepisodeId)
      rw [hepisode episodeId episode he, Option.isSome_some]
  · have hread : (c.head.bugEpisodeId.bind fun id => db₃.episodes.get id) = c.bugEpisode := by
      cases he : c.bugEpisode with
      | none => rw [head, he]; rfl
      | some episode =>
        rw [head, he, hepisodes₃]
        exact hown₂ episode he
    rw [load, hcases, get_writtenCases_own h, Option.map_some, hread, hown₃, hattempts, hown₁]
    rfl
  · intro id hne
    rw [load, load, hcases, get_writtenCases_other hne]
    cases hrow : db.cases.get id with
    | none => rfl
    | some row =>
      have hread : (row.bugEpisodeId.bind fun id => db₃.episodes.get id) =
          row.bugEpisodeId.bind fun id => db.episodes.get id := by
        cases he : row.bugEpisodeId with
        | none => rfl
        | some episodeId =>
          obtain ⟨episode, hepisodeRow⟩ :=
            Option.isSome_iff_exists.mp (hdb id row hrow episodeId he)
          exact (hepisode episodeId episode hepisodeRow).trans hepisodeRow.symm
      have hhandoff : db₃.handoffs.get id = db.handoffs.get id := by
        rw [hother₃ id hne, hhandoffs₂, hhandoffs₁]
        rfl
      rw [Option.map_some, Option.map_some, hread, hhandoff, hattempts, hother₁ id hne]
      rfl

end InvestigationTables

end Qualigence.Investigation
