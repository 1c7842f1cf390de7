import Qualigence.Sqlite.ReviewStore

/-! # The review queue

Reviewers send claims and resolutions in any order and repeat them at will. Every change of a
stored task is one that the functions of the review module make, each task is claimed and resolved
at most once, and a command whose key is taken changes nothing.
-/

namespace Qualigence.Foundation.Table

variable {ρ κ : Type*} {key : ρ → κ} [DecidableEq κ] {t u : Table ρ key} {r : ρ}

/-- Deleting the row that was just inserted, and no other, gives the table back. -/
theorem delete_of_insert (h : t.insert r = some u) {p : ρ → Bool} (hr : p r = true)
    (hp : ∀ r', p r' = true → key r' = key r) : u.delete p = t := by
  have hrows : (u.delete p).rows = t.rows := by
    change u.rows.filter _ = t.rows
    rw [rows_of_insert h, List.filter_append, List.filter_singleton, hr]
    have hfree := get_eq_none_iff.mp (get_eq_none_of_insert h)
    have hall : t.rows.filter (fun r' => !p r') = t.rows := by
      refine List.filter_eq_self.mpr ?_
      intro r' hm
      cases hpr : p r' with
      | false => rfl
      | true => exact absurd (hp r' hpr) (hfree r' hm)
    rw [hall]
    exact List.append_nil _
  cases t
  simp only [delete, Table.mk.injEq] at hrows ⊢
  exact hrows

end Qualigence.Foundation.Table

namespace Qualigence.Sqlite

open Foundation Review

namespace ReviewDb

variable {db : ReviewDb}

/-- What a claim does: it advances a task that it may claim, or changes nothing. -/
inductive Claims (db : ReviewDb) (command : ClaimReviewTaskCommand) :
    ReviewResult × ReviewDb → Prop
  | unchanged (result : ReviewResult) : Claims db command (result, db)
  | applied (task after : ReviewTask) (db' : ReviewDb) :
    db.find command.taskId = some task → claimReviewTask task command = .ok after →
    (∀ id, db'.find id = if id = command.taskId then some after else db.find id) →
    db.claims.insert (claimRow command) = some db'.claims →
    db'.resolutions = db.resolutions → Claims db command (.ok (some after), db')

/-- What a resolution does. -/
inductive Resolves (db : ReviewDb) (caseId : String) (command : ResolveReviewTaskCommand) :
    ReviewResult × ReviewDb → Prop
  | unchanged (result : ReviewResult) : Resolves db caseId command (result, db)
  | applied (task after : ReviewTask) (resolution : ReviewResolution) (db' : ReviewDb) :
    db.find command.taskId = some task →
    resolveReviewTask task command = .ok (after, resolution) →
    (∀ id, db'.find id = if id = command.taskId then some after else db.find id) →
    db.resolutions.insert (resolutionRow caseId command) = some db'.resolutions →
    db'.claims = db.claims → Resolves db caseId command (.ok (some after), db')

/-- A compare-and-set that finds its task. -/
theorem find_update {id : String} {p : ReviewTask → Bool} {f : ReviewTask → ReviewTask}
    (hf : ∀ t, (f t).taskId = t.taskId) (hp : ∀ t, p t = true → t.taskId = id)
    (hcount : db.tasks.count p ≠ 0) :
    ∃ task, db.find id = some task ∧ p task = true ∧
      ∀ k, (db.tasks.update p f hf).get k = if k = id then some (f task) else db.find k := by
  rw [Table.count_eq_of_key hp] at hcount
  split at hcount
  · next hany =>
    obtain ⟨task, ht, hpt⟩ := Option.any_eq_true .. |>.mp hany
    refine ⟨task, ht, hpt, ?_⟩
    intro k
    rw [Table.get_update]
    split
    · next hk =>
      rw [hk, ht]
      simp [hpt]
    · next hk =>
      change _ = db.tasks.get k
      cases hg : db.tasks.get k with
      | none => rfl
      | some t =>
        have hnp : p t ≠ true := fun hpt' => hk ((Table.key_of_get hg).symm.trans (hp t hpt'))
        simp [hnp]
  · exact absurd rfl hcount

theorem claims_spec (db : ReviewDb) (command : ClaimReviewTaskCommand) :
    Claims db command (db.claim command) := by
  unfold claim
  split
  · split
    · split <;> exact .unchanged _
    · exact .unchanged _
  · next claims hins =>
    split
    · exact .unchanged _
    · split
      · dsimp only
        rw [Table.delete_of_insert hins (by simp [claimRow]) (by simp +contextual [claimRow])]
        exact .unchanged _
      · next hcount =>
        obtain ⟨task, hfind, hp, hget⟩ := find_update (f := setClaimed command)
          (p := claimable command) (fun _ => rfl) (fun t ht => (of_decide_eq_true ht).1) hcount
        obtain ⟨hid, hopen, hv⟩ := of_decide_eq_true hp
        have hafter : claimReviewTask task command = .ok (setClaimed command task) :=
          claimReviewTask_eq_ok.mpr ⟨hopen, hv, by rw [setClaimed, hv]⟩
        have hself := hget command.taskId
        rw [if_pos rfl] at hself
        change Claims db command (.ok ((db.tasks.update (claimable command) (setClaimed command)
          (fun _ => rfl)).get command.taskId), _)
        rw [hself]
        exact .applied task _ _ hfind hafter hget hins rfl

theorem resolves_spec (db : ReviewDb) (caseId : String) (command : ResolveReviewTaskCommand) :
    Resolves db caseId command (db.resolve caseId command) := by
  unfold resolve
  split
  · split
    · split <;> exact .unchanged _
    · exact .unchanged _
  · next resolutions hins =>
    split
    · exact .unchanged _
    · split
      · dsimp only
        rw [Table.delete_of_insert hins (by simp [resolutionRow])
          (by simp +contextual [resolutionRow])]
        exact .unchanged _
      · next hcount =>
        obtain ⟨task, hfind, hp, hget⟩ := find_update (f := setResolved command)
          (p := resolvable command) (fun _ => rfl) (fun t ht => (of_decide_eq_true ht).1) hcount
        obtain ⟨hid, hclaimed, hv, ha⟩ := of_decide_eq_true hp
        have hafter : resolveReviewTask task command = .ok (setResolved command task, _) :=
          resolveReviewTask_eq_ok.mpr ⟨hclaimed, hv, ha, by rw [setResolved, hv], rfl⟩
        have hself := hget command.taskId
        rw [if_pos rfl] at hself
        change Resolves db caseId command (.ok ((db.tasks.update (resolvable command)
          (setResolved command) (fun _ => rfl)).get command.taskId), _)
        rw [hself]
        exact .applied task _ _ _ hfind hafter hget hins rfl

/-! ### Keys that are taken -/

/-- A claim whose key was taken by a claim changes nothing, and returns the stored task only
when it is that claim. -/
theorem claim_of_taken {first : ClaimReviewTaskCommand} {command : ClaimReviewTaskCommand}
    (h : db.claims.get first.idempotencyKey = some (claimRow first))
    (hk : command.idempotencyKey = first.idempotencyKey) :
    db.claim command = (.ok (if command = first then db.find first.taskId else none), db) := by
  have hins : db.claims.insert (claimRow command) = none := by
    rw [Table.insert_eq_none_iff]
    change (db.claims.get command.idempotencyKey).isSome
    rw [hk, h]
    rfl
  have hsame : (claimRow first).taskId = command.taskId ∧
      (claimRow first).reviewerId = command.reviewerId ∧
      (claimRow first).claimedVersion = command.expectedVersion + 1 ↔ command = first := by
    constructor
    · rintro ⟨h₁, h₂, h₃⟩
      cases command
      cases first
      simp only [claimRow] at h₁ h₂ h₃ hk
      simp only [ClaimReviewTaskCommand.mk.injEq]
      exact ⟨h₁.symm, by omega, h₂.symm, hk⟩
    · rintro rfl
      exact ⟨rfl, rfl, rfl⟩
  unfold claim
  rw [hins]
  dsimp only
  rw [hk, h]
  dsimp only
  by_cases hc : command = first
  · rw [if_pos (hsame.mpr hc), if_pos hc, hc]
  · rw [if_neg (mt hsame.mp hc), if_neg hc]

theorem stringifyRefs_injective : Function.Injective stringifyRefs := by
  have hplain : ∀ refs : List String, Protocol.Plain (.arr (refs.map Protocol.JsValue.str)) := by
    intro refs
    rw [Protocol.Plain, Protocol.plainItems_iff]
    intro v hv
    obtain ⟨s, -, rfl⟩ := List.mem_map.mp hv
    simp [Protocol.Plain]
  intro refs refs' h
  have ht := Protocol.textOf_injective (hplain refs) (hplain refs') (String.ofList_injective h)
  have hm : refs.map Protocol.JsValue.str = refs'.map Protocol.JsValue.str := by
    injection ht
  exact List.map_injective_iff.mpr (fun _ _ he => by injection he) hm

theorem resolve_of_taken {first command : ResolveReviewTaskCommand} {firstCase caseId : String}
    (h : db.resolutions.get first.idempotencyKey = some (resolutionRow firstCase first))
    (hk : command.idempotencyKey = first.idempotencyKey) :
    db.resolve caseId command =
      (.ok (if command = first then db.find first.taskId else none), db) := by
  have hins : db.resolutions.insert (resolutionRow caseId command) = none := by
    rw [Table.insert_eq_none_iff]
    change (db.resolutions.get command.idempotencyKey).isSome
    rw [hk, h]
    rfl
  have hsame : (resolutionRow firstCase first).taskId = command.taskId ∧
      (resolutionRow firstCase first).reviewerId = command.reviewerId ∧
      (resolutionRow firstCase first).disposition = command.disposition ∧
      (resolutionRow firstCase first).evidenceRefsJson = stringifyRefs command.evidenceRefs ∧
      (resolutionRow firstCase first).resolvedVersion = command.expectedVersion + 1 ↔
        command = first := by
    constructor
    · rintro ⟨h₁, h₂, h₃, h₄, h₅⟩
      have hrefs := stringifyRefs_injective h₄
      cases command
      cases first
      simp only [resolutionRow] at h₁ h₂ h₃ h₅ hk hrefs
      simp only [ResolveReviewTaskCommand.mk.injEq]
      exact ⟨h₁.symm, by omega, h₂.symm, h₃.symm, hrefs.symm, hk⟩
    · rintro rfl
      exact ⟨rfl, rfl, rfl, rfl, rfl⟩
  unfold resolve
  rw [hins]
  dsimp only
  rw [hk, h]
  dsimp only
  by_cases hc : command = first
  · rw [if_pos (hsame.mpr hc), if_pos hc, hc]
  · rw [if_neg (mt hsame.mp hc), if_neg hc]

end ReviewDb

/-! ## Histories -/

def ReviewCommand.taskId : ReviewCommand → String
  | .claim command => command.taskId
  | .resolve command => command.taskId

def ReviewCommand.isClaim : ReviewCommand → Bool
  | .claim _ => true
  | .resolve _ => false

/-- A change of a stored task, with the command that made it. -/
structure Transition where
  command : ReviewCommand
  before : ReviewTask
  after : ReviewTask
  deriving DecidableEq

namespace Transition

/-- The change is the one that the review module makes for the command. -/
def Lawful (t : Transition) : Prop :=
  match t.command with
  | .claim command => claimReviewTask t.before command = .ok t.after
  | .resolve command => ∃ resolution, resolveReviewTask t.before command = .ok (t.after, resolution)

def isFor (id : String) (t : Transition) : Bool := decide (t.before.taskId = id)

/-- Changes, the latest first, that lead from a task as it is opened to the given one. -/
def Replays : List Transition → ReviewTask → Prop
  | [], task => ∃ draft, task = openReviewTask draft
  | t :: ts, task => t.after = task ∧ Replays ts t.before

/-- How far the task is that lawful changes lead to. -/
inductive Stage : List Transition → ReviewTask → Prop
  | open {task : ReviewTask} : task.status = .open → task.version = 1 → Stage [] task
  | claimed {task : ReviewTask} {t : Transition} {c : ClaimReviewTaskCommand} :
    t.command = .claim c → task.status = .claimed → task.version = 2 →
    task.assigneeId = some c.reviewerId → Stage [t] task
  | resolved {task : ReviewTask} {t u : Transition} {c : ClaimReviewTaskCommand}
      {d : ResolveReviewTaskCommand} :
    t.command = .claim c → u.command = .resolve d → d.reviewerId = c.reviewerId →
    task.status = .resolved → task.version = 3 → Stage [u, t] task

variable {t : Transition} {ts : List Transition} {task : ReviewTask}

theorem lawful_claim {c : ClaimReviewTaskCommand} (h : t.Lawful) (hc : t.command = .claim c) :
    claimReviewTask t.before c = .ok t.after := by
  rw [Lawful, hc] at h
  exact h

theorem lawful_resolve {c : ResolveReviewTaskCommand} (h : t.Lawful)
    (hc : t.command = .resolve c) :
    ∃ resolution, resolveReviewTask t.before c = .ok (t.after, resolution) := by
  rw [Lawful, hc] at h
  exact h

/-- A task that is opened can only be claimed, and a claimed one only be resolved. -/
theorem stage_of_replays (h : Replays ts task) (hl : ∀ t ∈ ts, Lawful t) : Stage ts task := by
  induction ts generalizing task with
  | nil =>
    obtain ⟨draft, rfl⟩ := h
    exact .open rfl rfl
  | cons t ts ih =>
    obtain ⟨rfl, hrest⟩ := h
    have hstage := ih hrest fun t ht => hl t (List.mem_cons_of_mem _ ht)
    have hlaw := hl t List.mem_cons_self
    cases hc : t.command with
    | claim c =>
      obtain ⟨hopen, hv, hafter⟩ := claimReviewTask_eq_ok.mp (lawful_claim hlaw hc)
      cases hstage with
      | «open» _ hone =>
        rw [hafter]
        exact .claimed hc rfl (by simp [hone]) rfl
      | claimed _ hs => simp [hopen] at hs
      | resolved _ _ _ hs => simp [hopen] at hs
    | resolve d =>
      obtain ⟨r, hr⟩ := lawful_resolve hlaw hc
      obtain ⟨hclaimed, hv, hassignee, hafter, -⟩ := resolveReviewTask_eq_ok.mp hr
      cases hstage with
      | «open» hs => simp [hclaimed] at hs
      | claimed hu _ htwo hby =>
        rw [hafter]
        rw [hby] at hassignee
        exact .resolved hu hc (Option.some.inj hassignee).symm rfl (by simp [htwo])
      | resolved _ _ _ hs => simp [hclaimed] at hs

/-- A lawful change keeps what identifies the task and advances its version. -/
theorem Lawful.after (h : t.Lawful) : t.after.taskId = t.before.taskId ∧
    t.after.caseId = t.before.caseId ∧ t.after.version = t.before.version + 1 := by
  cases hc : t.command with
  | claim c =>
    obtain ⟨-, -, ha⟩ := claimReviewTask_eq_ok.mp (lawful_claim h hc)
    rw [ha]
    exact ⟨rfl, rfl, rfl⟩
  | resolve c =>
    obtain ⟨r, hr⟩ := lawful_resolve h hc
    obtain ⟨-, -, -, ha, -⟩ := resolveReviewTask_eq_ok.mp hr
    rw [ha]
    exact ⟨rfl, rfl, rfl⟩

theorem Lawful.before_ne_after (h : t.Lawful) : t.before ≠ t.after := by
  intro he
  have := h.after.2.2
  rw [← he] at this
  omega

end Transition

structure ReviewWorld where
  db : ReviewDb
  calls : List ReviewCall
  log : List Transition

/-- A task is opened, a reviewer sends a command, or a call makes its next step. -/
inductive ReviewEvent where
  | openTask (draft : ReviewTaskDraft)
  | submit (command : ReviewCommand)
  | turn (i : ℕ) (busy : Bool)

namespace ReviewWorld

def initial : ReviewWorld := ⟨.empty, [], []⟩

/-- The change of its task that a call made. -/
def changes (command : ReviewCommand) (db db' : ReviewDb) : List Transition :=
  match db.find command.taskId, db'.find command.taskId with
  | some before, some after => if before = after then [] else [⟨command, before, after⟩]
  | _, _ => []

def step (w : ReviewWorld) : ReviewEvent → ReviewWorld
  | .openTask draft => { w with db := w.db.openTask draft }
  | .submit command => { w with calls := w.calls ++ [.submit command] }
  | .turn i busy =>
    match w.calls[i]? with
    | none => w
    | some call =>
      let (call', db') := call.turn w.db busy
      ⟨db', w.calls.set i call', changes call.command w.db db' ++ w.log⟩

/-- What a call that advances its task does to the store. -/
structure Advances (db db' : ReviewDb) (t : Transition) : Prop where
  taskId : t.before.taskId = t.command.taskId
  found : db.find t.command.taskId = some t.before
  lawful : t.Lawful
  find : ∀ id, db'.find id = if id = t.command.taskId then some t.after else db.find id
  claims : ∀ k row, db.claims.get k = some row → db'.claims.get k = some row
  resolutions : ∀ k row, db.resolutions.get k = some row → db'.resolutions.get k = some row
  claimed : ∀ c, t.command = .claim c → db'.claims.get c.idempotencyKey = some (ReviewDb.claimRow c)
  resolved : ∀ c, t.command = .resolve c → db'.resolutions.get c.idempotencyKey =
    some (ReviewDb.resolutionRow t.before.caseId c)

/-- A resolution that is about to write has read the case of its task. -/
def HasRead (db : ReviewDb) (call : ReviewCall) : Prop :=
  ∀ c caseId attempt, call.command = .resolve c → call.phase = .writing caseId attempt →
    ∃ task, db.find c.taskId = some task ∧ task.caseId = caseId

theorem advances_claim {db db' : ReviewDb} {c : ClaimReviewTaskCommand} {task after : ReviewTask}
    (hf : db.find c.taskId = some task) (ha : claimReviewTask task c = .ok after)
    (hfind : ∀ id, db'.find id = if id = c.taskId then some after else db.find id)
    (hins : db.claims.insert (ReviewDb.claimRow c) = some db'.claims)
    (hres : db'.resolutions = db.resolutions) : Advances db db' ⟨.claim c, task, after⟩ where
  taskId := Table.key_of_get hf
  found := hf
  lawful := ha
  find := hfind
  claims k row h := Table.get_of_insert_of_get hins h
  resolutions k row h := by
    rw [hres]
    exact h
  claimed c' hc := by
    cases hc
    rw [Table.get_of_insert hins]
    exact if_pos rfl
  resolved c' hc := by cases hc

theorem advances_resolve {db db' : ReviewDb} {c : ResolveReviewTaskCommand}
    {task after : ReviewTask} {resolution : ReviewResolution}
    (hf : db.find c.taskId = some task) (ha : resolveReviewTask task c = .ok (after, resolution))
    (hfind : ∀ id, db'.find id = if id = c.taskId then some after else db.find id)
    (hins : db.resolutions.insert (ReviewDb.resolutionRow task.caseId c) = some db'.resolutions)
    (hcl : db'.claims = db.claims) : Advances db db' ⟨.resolve c, task, after⟩ where
  taskId := Table.key_of_get hf
  found := hf
  lawful := ⟨resolution, ha⟩
  find := hfind
  claims k row h := by
    rw [hcl]
    exact h
  resolutions k row h := Table.get_of_insert_of_get hins h
  claimed c' hc := by cases hc
  resolved c' hc := by
    cases hc
    rw [Table.get_of_insert hins]
    exact if_pos rfl

/-- A step of a call advances its task lawfully or leaves the store as it is. -/
theorem turn_cases {db : ReviewDb} {call : ReviewCall} (busy : Bool) (hread : HasRead db call) :
    (call.turn db busy).2 = db ∨
      ∃ t, t.command = call.command ∧ Advances db (call.turn db busy).2 t := by
  obtain ⟨command, phase⟩ := call
  cases phase with
  | started =>
    left
    cases command with
    | claim c => rfl
    | resolve c =>
      simp only [ReviewCall.turn]
      split <;> rfl
  | returned result => exact Or.inl rfl
  | writing caseId attempt =>
    cases busy with
    | true =>
      left
      simp only [ReviewCall.turn, if_true]
      split <;> rfl
    | false =>
      cases command with
      | claim c =>
        have h := ReviewDb.claims_spec db c
        change (db.claim c).2 = db ∨ ∃ t, _ ∧ Advances db (db.claim c).2 t
        generalize db.claim c = r at h ⊢
        cases h with
        | unchanged => exact Or.inl rfl
        | applied task after db' hf ha hfind hins hres =>
          exact Or.inr ⟨_, rfl, advances_claim hf ha hfind hins hres⟩
      | resolve c =>
        have h := ReviewDb.resolves_spec db caseId c
        change (db.resolve caseId c).2 = db ∨ ∃ t, _ ∧ Advances db (db.resolve caseId c).2 t
        generalize db.resolve caseId c = r at h ⊢
        cases h with
        | unchanged => exact Or.inl rfl
        | applied task after resolution db' hf ha hfind hins hcl =>
          obtain ⟨task', hf', rfl⟩ := hread c caseId attempt rfl rfl
          rw [hf] at hf'
          cases hf'
          exact Or.inr ⟨_, rfl, advances_resolve hf ha hfind hins hcl⟩

theorem changes_same (command : ReviewCommand) (db : ReviewDb) : changes command db db = [] := by
  unfold changes
  split
  · next h₁ h₂ =>
    rw [h₁] at h₂
    cases h₂
    exact if_pos rfl
  · rfl

theorem changes_of_advances {db db' : ReviewDb} {t : Transition} (h : Advances db db' t) :
    changes t.command db db' = [t] := by
  have hself := h.find t.command.taskId
  rw [if_pos rfl] at hself
  unfold changes
  rw [h.found, hself]
  exact if_neg h.lawful.before_ne_after

/-- The invariant of the queue. -/
structure Inv (w : ReviewWorld) : Prop where
  lawful : ∀ t ∈ w.log, t.Lawful
  named : ∀ t ∈ w.log, t.before.taskId = t.command.taskId
  known : ∀ t ∈ w.log, w.db.find t.before.taskId ≠ none
  replays : ∀ id task, w.db.find id = some task →
    Transition.Replays (w.log.filter (Transition.isFor id)) task
  claimed : ∀ t ∈ w.log, ∀ c, t.command = .claim c →
    w.db.claims.get c.idempotencyKey = some (ReviewDb.claimRow c)
  resolved : ∀ t ∈ w.log, ∀ c, t.command = .resolve c →
    w.db.resolutions.get c.idempotencyKey = some (ReviewDb.resolutionRow t.before.caseId c)
  read : ∀ call ∈ w.calls, HasRead w.db call

variable {w : ReviewWorld}

theorem HasRead.mono {db db' : ReviewDb} {call : ReviewCall} (h : HasRead db call)
    (hkeep : ∀ id task, db.find id = some task →
      ∃ task', db'.find id = some task' ∧ task'.caseId = task.caseId) : HasRead db' call := by
  intro c caseId attempt hc hp
  obtain ⟨task, hf, rfl⟩ := h c caseId attempt hc hp
  exact hkeep c.taskId task hf

/-- What a call has read after its step, in the store that it started from. -/
theorem hasRead_turn {db : ReviewDb} {call : ReviewCall} (busy : Bool) (h : HasRead db call) :
    HasRead db (call.turn db busy).1 := by
  obtain ⟨command, phase⟩ := call
  cases phase with
  | returned result => exact h
  | started =>
    cases command with
    | claim c =>
      intro c' caseId attempt hc hp
      cases hc
    | resolve c =>
      intro c' caseId attempt hc hp
      simp only [ReviewCall.turn] at hc hp
      split at hp
      · cases hp
      · next hf =>
        rw [hf] at hc
        cases hc
        cases hp
        exact ⟨_, hf, rfl⟩
  | writing caseId attempt =>
    cases busy with
    | true =>
      intro c' caseId' attempt' hc hp
      simp only [ReviewCall.turn, if_true] at hc hp
      split at hp
      · cases hp
      · next ha =>
        rw [if_neg ha] at hc
        cases hp
        exact h c' caseId attempt hc rfl
    | false =>
      intro c' caseId' attempt' hc hp
      cases command <;> cases hp

theorem keeps_of_advances {db db' : ReviewDb} {t : Transition} (h : Advances db db' t)
    (id : String) (task : ReviewTask) (hf : db.find id = some task) :
    ∃ task', db'.find id = some task' ∧ task'.caseId = task.caseId := by
  by_cases hid : id = t.command.taskId
  · rw [hid, h.found] at hf
    cases hf
    exact ⟨t.after, by rw [h.find, if_pos hid], h.lawful.after.2.1⟩
  · exact ⟨task, by rw [h.find, if_neg hid, hf], rfl⟩

theorem Inv.advance (h : Inv w) {db' : ReviewDb} {t : Transition} (ht : Advances w.db db' t)
    (calls : List ReviewCall) (hcalls : ∀ call ∈ calls, HasRead w.db call) :
    Inv ⟨db', calls, t :: w.log⟩ where
  lawful u hu := by
    obtain rfl | hu := List.mem_cons.mp hu
    · exact ht.lawful
    · exact h.lawful u hu
  named u hu := by
    obtain rfl | hu := List.mem_cons.mp hu
    · exact ht.taskId
    · exact h.named u hu
  known u hu := by
    rw [ht.find]
    split
    · nofun
    · next hid =>
      obtain rfl | hu := List.mem_cons.mp hu
      · exact absurd ht.taskId hid
      · exact h.known u hu
  replays id task hf := by
    rw [ht.find] at hf
    by_cases hid : id = t.command.taskId
    · rw [if_pos hid] at hf
      have hfor : t.isFor id = true := decide_eq_true (ht.taskId.trans hid.symm)
      rw [List.filter_cons_of_pos hfor]
      refine ⟨Option.some.inj hf, h.replays id t.before ?_⟩
      rw [hid]
      exact ht.found
    · rw [if_neg hid] at hf
      have hfor : ¬ t.isFor id = true := fun hd =>
        hid ((of_decide_eq_true hd).symm.trans ht.taskId)
      rw [List.filter_cons_of_neg hfor]
      exact h.replays id task hf
  claimed u hu c hc := by
    obtain rfl | hu := List.mem_cons.mp hu
    · exact ht.claimed c hc
    · exact ht.claims _ _ (h.claimed u hu c hc)
  resolved u hu c hc := by
    obtain rfl | hu := List.mem_cons.mp hu
    · exact ht.resolved c hc
    · exact ht.resolutions _ _ (h.resolved u hu c hc)
  read call hcall := (hcalls call hcall).mono (keeps_of_advances ht)

theorem Inv.openTask (h : Inv w) (draft : ReviewTaskDraft) :
    Inv { w with db := w.db.openTask draft } := by
  unfold ReviewDb.openTask ReviewDb.create
  cases hins : w.db.tasks.insert (openReviewTask draft) with
  | none => exact h
  | some tasks =>
    have hkeep : ∀ id task, w.db.find id = some task → tasks.get id = some task :=
      fun id task hf => Table.get_of_insert_of_get hins hf
    refine ⟨h.lawful, h.named, ?_, ?_, h.claimed, h.resolved, ?_⟩
    · intro t ht hn
      obtain ⟨task, hf⟩ := Option.ne_none_iff_exists'.mp (h.known t ht)
      change tasks.get t.before.taskId = none at hn
      rw [hkeep _ task hf] at hn
      cases hn
    · intro id task hf
      change tasks.get id = some task at hf
      rw [Table.get_of_insert hins] at hf
      split at hf
      · next hid =>
        cases hf
        have hempty : w.log.filter (Transition.isFor id) = [] := by
          refine List.filter_eq_nil_iff.mpr ?_
          intro t ht hfor
          have hfree := Table.get_eq_none_of_insert hins
          have hfree : w.db.find draft.taskId = none := hfree
          have hid' : t.before.taskId = draft.taskId := (of_decide_eq_true hfor).trans hid.symm
          exact h.known t ht (hid' ▸ hfree)
        rw [hempty]
        exact ⟨draft, rfl⟩
      · exact h.replays id task hf
    · intro call hcall
      exact (h.read call hcall).mono fun id task hf => ⟨task, hkeep id task hf, rfl⟩

theorem Inv.step (h : Inv w) (e : ReviewEvent) : Inv (w.step e) := by
  cases e with
  | openTask draft => exact h.openTask draft
  | submit command =>
    refine ⟨h.lawful, h.named, h.known, h.replays, h.claimed, h.resolved, ?_⟩
    intro call hcall
    obtain hcall | hcall := List.mem_append.mp hcall
    · exact h.read call hcall
    · obtain rfl := List.mem_singleton.mp hcall
      cases command <;> intro c caseId attempt hc hp
      · cases hc
      · cases hp
  | turn i busy =>
    rw [ReviewWorld.step]
    split
    · exact h
    · next call hcall =>
      have hmem : call ∈ w.calls := List.mem_of_getElem? hcall
      have hcalls : ∀ c ∈ w.calls.set i (call.turn w.db busy).1, HasRead w.db c := by
        intro c hc
        obtain hc | rfl := List.mem_or_eq_of_mem_set hc
        · exact h.read c hc
        · exact hasRead_turn busy (h.read call hmem)
      change Inv ⟨(call.turn w.db busy).2, w.calls.set i (call.turn w.db busy).1,
        changes call.command w.db (call.turn w.db busy).2 ++ w.log⟩
      obtain hsame | ⟨t, htc, ht⟩ := turn_cases busy (h.read call hmem)
      · rw [hsame, changes_same]
        exact ⟨h.lawful, h.named, h.known, h.replays, h.claimed, h.resolved, hcalls⟩
      · rw [← htc, changes_of_advances ht]
        exact h.advance ht _ hcalls

theorem Inv.initial : Inv initial where
  lawful t ht := absurd ht List.not_mem_nil
  named t ht := absurd ht List.not_mem_nil
  known t ht := absurd ht List.not_mem_nil
  replays id task hf := by
    have hnone : ReviewWorld.initial.db.find id = none := Table.get_empty
    rw [hnone] at hf
    cases hf
  claimed t ht := absurd ht List.not_mem_nil
  resolved t ht := absurd ht List.not_mem_nil
  read call hcall := absurd hcall List.not_mem_nil

theorem Inv.run (events : List ReviewEvent) :
    Inv (events.foldl ReviewWorld.step ReviewWorld.initial) := by
  have hstart := Inv.initial
  generalize ReviewWorld.initial = w at hstart ⊢
  induction events generalizing w with
  | nil => exact hstart
  | cons e events ih => exact ih _ (hstart.step e)

/-! ## The laws of the queue -/

/-- The resolution as it is stored. -/
def storedResolution (resolution : ReviewResolution) (version : ℤ) : ReviewResolutionRow where
  idempotencyKey := resolution.idempotencyKey
  taskId := resolution.taskId
  caseId := resolution.caseId
  reviewerId := resolution.reviewerId
  disposition := resolution.disposition
  evidenceRefsJson := stringifyRefs resolution.evidenceRefs
  resolvedVersion := version

/-- The changes of a task. -/
def changesOf (w : ReviewWorld) (id : String) : List Transition :=
  w.log.filter (Transition.isFor id)

/-- Every change is one that the review module makes, and a resolution is stored with it. -/
def AllLawful (w : ReviewWorld) : Prop :=
  ∀ t ∈ w.log, match t.command with
    | .claim c => claimReviewTask t.before c = .ok t.after
    | .resolve c => ∃ resolution, resolveReviewTask t.before c = .ok (t.after, resolution) ∧
      w.db.resolutions.get c.idempotencyKey = some (storedResolution resolution t.after.version)

/-- A task is claimed and then resolved by its claimant, at most, and its version counts it. -/
def Ordered (w : ReviewWorld) (id : String) : Prop :=
  (w.changesOf id = [] ∨
    (∃ t c, w.changesOf id = [t] ∧ t.command = .claim c) ∨
    ∃ t u c d, w.changesOf id = [u, t] ∧ t.command = .claim c ∧ u.command = .resolve d ∧
      d.reviewerId = c.reviewerId) ∧
  ∀ task, w.db.find id = some task →
    Transition.Replays (w.changesOf id) task ∧ task.version = 1 + (w.changesOf id).length

/-- A command whose key an applied command of its kind has taken changes nothing; it returns the
task when it is that command and nothing when it is another. -/
def KeysTaken (w : ReviewWorld) : Prop :=
  ∀ t ∈ w.log, match t.command with
    | .claim c => ∀ c', c'.idempotencyKey = c.idempotencyKey →
      w.db.claim c' = (.ok (if c' = c then w.db.find c.taskId else none), w.db)
    | .resolve c => ∀ caseId c', c'.idempotencyKey = c.idempotencyKey →
      w.db.resolve caseId c' = (.ok (if c' = c then w.db.find c.taskId else none), w.db)

theorem Inv.ordered (h : Inv w) (id : String) : w.Ordered id := by
  have hlaw : ∀ t ∈ w.changesOf id, t.Lawful := fun t ht => h.lawful t (List.mem_of_mem_filter ht)
  cases hf : w.db.find id with
  | none =>
    have hempty : w.changesOf id = [] := by
      refine List.filter_eq_nil_iff.mpr ?_
      intro t ht hfor
      obtain rfl := of_decide_eq_true hfor
      exact h.known t ht hf
    refine ⟨Or.inl hempty, ?_⟩
    intro task htask
    rw [hf] at htask
    cases htask
  | some task =>
    have hrep := h.replays id task hf
    have hstage : Transition.Stage (w.changesOf id) task :=
      Transition.stage_of_replays hrep hlaw
    have hversion : task.version = 1 + (w.changesOf id).length := by
      generalize w.changesOf id = ts at hstage
      cases hstage with
      | «open» _ hv => simp [hv]
      | claimed _ _ hv _ => simp [hv]
      | resolved _ _ _ _ hv => simp [hv]
    refine ⟨?_, ?_⟩
    · generalize w.changesOf id = ts at hstage
      cases hstage with
      | «open» => exact Or.inl rfl
      | claimed hc => exact Or.inr (Or.inl ⟨_, _, rfl, hc⟩)
      | resolved hc hd hby => exact Or.inr (Or.inr ⟨_, _, _, _, rfl, hc, hd, hby⟩)
    · intro task' htask'
      rw [hf] at htask'
      cases htask'
      exact ⟨hrep, hversion⟩

theorem Inv.allLawful (h : Inv w) : w.AllLawful := by
  intro t ht
  have hlaw := h.lawful t ht
  split
  · next c hc => exact Transition.lawful_claim hlaw hc
  · next c hc =>
    obtain ⟨resolution, hr⟩ := Transition.lawful_resolve hlaw hc
    refine ⟨resolution, hr, ?_⟩
    obtain ⟨-, hv, -, hafter, rfl⟩ := resolveReviewTask_eq_ok.mp hr
    have hid : t.before.taskId = c.taskId := by
      rw [h.named t ht, hc]
      rfl
    rw [h.resolved t ht c hc, hafter]
    simp [storedResolution, ReviewDb.resolutionRow, hid, hv]

theorem Inv.keysTaken (h : Inv w) : w.KeysTaken := by
  intro t ht
  split
  · next c hc => exact fun c' hk => ReviewDb.claim_of_taken (h.claimed t ht c hc) hk
  · next c hc => exact fun caseId c' hk => ReviewDb.resolve_of_taken (h.resolved t ht c hc) hk

/-- In every history of the queue every change of a stored task is one that the review module
makes, a task is claimed at most once and resolved at most once and only by its claimant, its
version counts the commands applied to it, and a key that is taken changes nothing. -/
theorem review_queue_lawful (events : List ReviewEvent) :
    let w := events.foldl ReviewWorld.step ReviewWorld.initial
    w.AllLawful ∧ (∀ id, w.Ordered id) ∧ w.KeysTaken := by
  intro w
  have h : Inv w := Inv.run events
  exact ⟨h.allLawful, h.ordered, h.keysTaken⟩

/-- A claim that is repeated after the resolution returns the resolved task, and the resolution
was applied although the claim had taken its key. -/
theorem repeated_claim_returns_resolved :
    let db := ReviewDb.empty.openTask ⟨"t", "c", "needs_human", .high, .limited⟩
    let claim : ClaimReviewTaskCommand := ⟨"t", 1, "alice", "k"⟩
    let resolve : ResolveReviewTaskCommand := ⟨"t", 2, "alice", "accepted", [], "k"⟩
    let claimed : ReviewTask := ⟨"t", "c", .claimed, "needs_human", .high, .limited, "alice", 2⟩
    let resolved : ReviewTask := { claimed with status := .resolved, version := 3 }
    let db₁ := (db.claim claim).2
    let db₂ := (db₁.resolve "c" resolve).2
    (db.claim claim).1 = .ok (some claimed) ∧ db₁.find "t" = some claimed ∧
      db₂.find "t" = some resolved ∧ (db₂.claim claim).1 = .ok (some resolved) := by
  refine ⟨rfl, rfl, rfl, rfl⟩

end ReviewWorld

end Qualigence.Sqlite
