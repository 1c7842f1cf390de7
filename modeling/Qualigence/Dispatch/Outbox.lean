import Qualigence.Core.Grants
import Qualigence.Dispatch.Moves

/-! # Accepted dispatches have leases

The programs of the server keep one discipline: leases only move on, and a dispatch is
marked accepted, or a promise resolved, with a lease that was granted. The rows of the
outbox therefore move from pending once, and an accepted row has the lease of its job.
-/

namespace Qualigence.Dispatch

open Foundation Protocol Mission
open Core (Granted GrantInv GrantPermitted Later CoreOptions grantDiscipline)

variable {τ : Type} [DecidableEq τ] (P : PlanningPlatform) (O : ServerOracle) (scope : τ)
  (o : CoreOptions)

/-- Every accepted row has a lease. -/
def AcceptedGranted (w : Core.World τ) (db : MissionDb) : Prop :=
  ∀ row ∈ db.outbox.rows, row.status = .accepted → Granted scope w row.runnerJobId row.runId

/-- Every promise that was resolved has a lease. -/
def ResolvedGranted (w : Core.World τ) (deferreds : List Deferred) : Prop :=
  ∀ lease, Deferred.resolved lease ∈ deferreds → Granted scope w lease.jobId lease.runId

structure DispatchInv (s : DispatchState τ) : Prop where
  core : GrantInv o.platform scope s.core
  missions : s.missions.Exact P
  resolved : ResolvedGranted scope s.core s.deferreds
  accepted : AcceptedGranted scope s.core s.missions.db

/-- Dispatches are accepted and promises resolved only with granted leases. -/
def DispatchPermitted (s : DispatchState τ) : DispatchOp → Prop
  | .core op => GrantPermitted scope s.core op
  | .markDispatchAccepted _ receipt _ => Granted scope s.core receipt.jobId receipt.runId
  | .resolveOffer _ _ lease => Granted scope s.core lease.jobId lease.runId
  | _ => True

/-- What a step leaves: leases and dispatches move on, and a dispatch is accepted only with
a lease that was granted before the step. -/
structure Step (s t : DispatchState τ) : Prop where
  later : Later s.core t.core
  outbox : OutboxMoves s.missions.db t.missions.db
  accepted : ∀ row ∈ t.missions.db.outbox.rows, row.status = .accepted →
    row ∈ s.missions.db.outbox.rows ∨ Granted scope s.core row.runnerJobId row.runId

variable {P O scope o} {s t : DispatchState τ}

theorem ResolvedGranted.later {w w' : Core.World τ} {deferreds : List Deferred}
    (h : ResolvedGranted scope w deferreds) (hl : Later w w') :
    ResolvedGranted scope w' deferreds :=
  fun lease hmem => (h lease hmem).later hl

theorem Step.of_grows (hl : Later s.core t.core)
    (hg : OutboxGrows s.missions.db t.missions.db) : Step scope s t := by
  refine ⟨hl, hg.moves, fun row hrow hstatus => ?_⟩
  obtain ⟨added, hrows, hadded⟩ := hg
  rw [hrows] at hrow
  rcases List.mem_append.mp hrow with hrow | hrow
  · exact .inl hrow
  · rw [hadded row hrow] at hstatus
    cases hstatus

/-- A step that leaves the missions as they are. -/
theorem Step.of_missions (hl : Later s.core t.core) (hm : t.missions = s.missions) :
    Step scope s t :=
  .of_grows hl (.of_eq (by rw [hm]))

theorem Step.refl (s : DispatchState τ) : Step scope s s := .of_missions (.refl _) rfl

theorem Step.acceptedGranted (h : Step scope s t)
    (hs : AcceptedGranted scope s.core s.missions.db) :
    AcceptedGranted scope t.core t.missions.db := by
  intro row hrow hstatus
  rcases h.accepted row hrow hstatus with hold | hg
  · exact (hs row hold hstatus).later h.later
  · exact hg.later h.later

/-- A step whose missions take a service with a body of the outbox. -/
theorem Step.of_body {α : Type} {body : MissionDb → Scheduling (α × MissionDb)}
    {e : MissionEvent} (hl : Later s.core t.core)
    (hopen : s.missions.inProgress.isSome = false)
    (ht : t.missions.db = (s.missions.service P e).db)
    (he : (MissionWorld.step P ⟨s.missions.db, fun _ => none⟩ e).db =
      (transact body s.missions.db).2)
    (hbody : ∀ a db', body s.missions.db = .ok (a, db') →
      OutboxMoves s.missions.db db' ∧ ∀ row ∈ db'.outbox.rows, row.status = .accepted →
        row ∈ s.missions.db.outbox.rows ∨ Granted scope s.core row.runnerJobId row.runId) :
    Step scope s t := by
  have hall := transact_keeps (I := fun db' => OutboxMoves s.missions.db db' ∧
    ∀ row ∈ db'.outbox.rows, row.status = .accepted →
      row ∈ s.missions.db.outbox.rows ∨ Granted scope s.core row.runnerJobId row.runId)
    hbody ⟨(OutboxGrows.of_eq rfl).moves, fun row hrow _ => .inl hrow⟩
  have hdb : t.missions.db = (transact body s.missions.db).2 := by
    rw [ht, ← he]
    unfold StartWorld.service
    rw [hopen]
    rfl
  rw [← hdb] at hall
  exact ⟨hl, hall.1, hall.2⟩

/-! ## Transactions of the mission store -/

section Transactions

variable {α : Type} {body : MissionDb → Scheduling (α × MissionDb)}

theorem later_tick (w : Core.World τ) : Later w w.tick := fun _ => .refl _

theorem grantInv_tick {w : Core.World τ} (h : GrantInv o.platform scope w) :
    GrantInv o.platform scope w.tick :=
  ⟨h.remembered, h.named⟩

omit [DecidableEq τ] in
/-- A step of the mission store takes effect as a whole or not at all. -/
theorem onMissions_cases (O : Core.Oracle) (s : DispatchState τ)
    (r : Except DispatchError α) (missions : StartWorld) :
    (s.onMissions O r missions).2 = s.tick ∨
      (s.onMissions O r missions).2 = { s.tick with missions } := by
  unfold DispatchState.onMissions
  cases O.fault s.core.draws with
  | none => exact .inr rfl
  | before => exact .inl rfl
  | after => exact .inr rfl

omit [DecidableEq τ] in
theorem transaction_cases (O : Core.Oracle) (s : DispatchState τ)
    (body : MissionDb → Scheduling (α × MissionDb)) :
    (s.transaction O body).2 = s.tick ∨ s.missions.inProgress.isSome = false ∧
      (s.transaction O body).2 = { s.tick with
        missions := { s.missions with db := (transact body s.missions.db).2 } } := by
  unfold DispatchState.transaction
  split
  · rcases onMissions_cases O s (.error (.mission (.error
      "cannot start a transaction within a transaction")) : Except DispatchError α) s.missions
      with h | h
    · exact .inl h
    · exact .inl h
  · next hopen =>
    rcases onMissions_cases O s ((transact body s.missions.db).1.mapError .mission)
      { s.missions with db := (transact body s.missions.db).2 } with h | h
    · exact .inl h
    · exact .inr ⟨by simpa using hopen, h⟩

end Transactions

/-! ## The operations -/

/-- A step in memory, which stores nothing and resolves no promise. -/
structure InMemory (s t : DispatchState τ) : Prop where
  core : t.core = s.core ∨ t.core = s.core.tick
  missions : t.missions = s.missions
  resolved : ∀ l, Deferred.resolved l ∈ t.deferreds → .resolved l ∈ s.deferreds

omit [DecidableEq τ] in
theorem InMemory.refl (s : DispatchState τ) : InMemory s s := ⟨.inl rfl, rfl, fun _ h => h⟩

theorem InMemory.step (h : InMemory s t) : Step scope s t := by
  refine .of_missions ?_ h.missions
  rcases h.core with hc | hc
  · rw [hc]
    exact .refl _
  · rw [hc]
    exact later_tick _

theorem InMemory.inv (h : InMemory s t) (hs : DispatchInv P scope o s) :
    DispatchInv P scope o t := by
  have hstep : Step scope s t := h.step
  refine ⟨?_, ?_, fun l hl => hs.resolved.later hstep.later l (h.resolved l hl),
    hstep.acceptedGranted hs.accepted⟩
  · rcases h.core with hc | hc
    · rw [hc]
      exact hs.core
    · rw [hc]
      exact grantInv_tick hs.core
  · rw [h.missions]
    exact hs.missions

variable (P O scope o) in
/-- Everything that an operation can do to the leases, the missions and the promises. -/
inductive Effect (s : DispatchState τ) : DispatchOp → DispatchState τ → Prop
  | memory {op : DispatchOp} {t : DispatchState τ} (h : InMemory s t) : Effect s op t
  | core (op : Core.CoreOp) : Effect s (.core op)
      { s with core := (Core.handler o.platform O.toOracle scope op s.core).2 }
  | resolved {n : ℕ} {offerId : String} {lease : ExecutionJobLease} {t : DispatchState τ}
      (hc : t.core = s.core) (hm : t.missions = s.missions)
      (hd : ∀ l, Deferred.resolved l ∈ t.deferreds → .resolved l ∈ s.deferreds ∨ l = lease) :
      Effect s (.resolveOffer n offerId lease) t
  | accepted {attemptId : String} {receipt : MissionDispatchAcceptanceReceipt} {version : ℕ}
      (hopen : s.missions.inProgress.isSome = false) :
      Effect s (.markDispatchAccepted attemptId receipt version) { s.tick with
        missions := s.missions.service P (.markAccepted attemptId receipt version) }
  | blocked {attemptId : String} {version : ℕ} (hopen : s.missions.inProgress.isSome = false) :
      Effect s (.markDispatchBlocked attemptId version) { s.tick with
        missions := s.missions.service P (.markBlocked attemptId version) }

theorem effect_handler (op : DispatchOp) :
    Effect P O scope o s op (handler P O scope o op s).2 := by
  have hsame : ∀ {op : DispatchOp}, Effect P O scope o s op s := .memory (.refl s)
  have htick : ∀ {op : DispatchOp} {t : DispatchState τ}, t = s.tick →
      Effect P O scope o s op t := by
    rintro op _ rfl
    exact .memory ⟨.inr rfl, rfl, fun _ h => h⟩
  cases op with
  | core op => exact .core op
  | pendingDispatches limit =>
    rcases onMissions_cases O.toOracle s ((Mission.pendingDispatches P.toPlatform limit
      s.missions.visible).mapError .mission) s.missions with h | h
    · exact htick h
    · exact htick h
  | markDispatchAccepted attemptId receipt version =>
    rcases transaction_cases O.toOracle s
      (Mission.markDispatchAccepted P.toPlatform attemptId receipt version) with h | ⟨hopen, h⟩
    · exact htick h
    · have he : (handler P O scope o (.markDispatchAccepted attemptId receipt version) s).2 =
          { s.tick with
            missions := s.missions.service P (.markAccepted attemptId receipt version) } := by
        unfold StartWorld.service
        rw [hopen]
        exact h
      rw [he]
      exact .accepted hopen
  | markDispatchBlocked attemptId version =>
    rcases transaction_cases O.toOracle s
      (Mission.markDispatchBlocked P.toPlatform attemptId version) with h | ⟨hopen, h⟩
    · exact htick h
    · have he : (handler P O scope o (.markDispatchBlocked attemptId version) s).2 =
          { s.tick with missions := s.missions.service P (.markBlocked attemptId version) } := by
        unfold StartWorld.service
        rw [hopen]
        exact h
      rw [he]
      exact .blocked hopen
  | assertCurrent n message =>
    unfold handler
    dsimp only
    split
    · split <;> exact hsame
    · exact hsame
  | registerOffer n offerId =>
    unfold handler
    dsimp only
    split
    · split
      · exact hsame
      · exact .memory ⟨.inl rfl, rfl, fun l hl => by simpa using hl⟩
    · exact hsame
  | settled d =>
    unfold handler
    dsimp only
    split <;> exact hsame
  | admitFrame n =>
    unfold handler
    dsimp only
    split
    · split
      · exact hsame
      · split <;> exact hsame
    · exact hsame
  | resolveOffer n offerId lease =>
    unfold handler
    dsimp only
    split
    · split
      · unfold DispatchState.settle
        split
        · refine .resolved rfl rfl fun l hl => ?_
          rcases List.mem_or_eq_of_mem_set hl with hl | hl
          · exact .inl hl
          · cases hl
            exact .inr rfl
        · exact .memory ⟨.inl rfl, rfl, fun _ h => h⟩
      · exact hsame
    · exact hsame
  | nowMs =>
    unfold handler
    dsimp only
    split <;> exact htick rfl
  | _ => exact .memory ⟨.inl rfl, rfl, fun _ h => h⟩

theorem Effect.step {op : DispatchOp} (h : Effect P O scope o s op t)
    (hp : DispatchPermitted scope s op) : Step scope s t := by
  cases h with
  | memory h => exact h.step
  | core op => exact .of_missions (Core.later_handler op) rfl
  | resolved hc hm hd =>
    refine .of_missions ?_ hm
    rw [hc]
    exact .refl _
  | @accepted attemptId receipt version hopen =>
    refine .of_body (later_tick _) hopen rfl rfl fun d db' h => ?_
    obtain ⟨hmoves, hrows⟩ := moves_of_markAccepted h
    refine ⟨hmoves, fun row hrow _ => ?_⟩
    rcases hrows row hrow with hold | ⟨hj, hr⟩
    · exact .inl hold
    · rw [hj, hr]
      exact .inr hp
  | @blocked attemptId version hopen =>
    refine .of_body (later_tick _) hopen rfl rfl fun d db' h => ?_
    obtain ⟨hmoves, hrows⟩ := moves_of_markBlocked h
    refine ⟨hmoves, fun row hrow hstatus => ?_⟩
    rcases hrows row hrow with hold | hblocked
    · exact .inl hold
    · rw [hblocked] at hstatus
      cases hstatus

theorem Effect.inv {op : DispatchOp} (h : Effect P O scope o s op t)
    (hp : DispatchPermitted scope s op) (hs : DispatchInv P scope o s) :
    DispatchInv P scope o t := by
  have hstep := h.step hp
  have haccepted := hstep.acceptedGranted hs.accepted
  have hresolved := hs.resolved.later hstep.later
  cases h with
  | memory h => exact h.inv hs
  | core op =>
    have hcore := (grantDiscipline o.platform O.toOracle scope).keeps op s.core hp hs.core
    exact ⟨hcore.1, hs.missions, hresolved, haccepted⟩
  | resolved hc hm hd =>
    refine ⟨?_, ?_, fun l hl => ?_, haccepted⟩
    · rw [hc]
      exact hs.core
    · rw [hm]
      exact hs.missions
    · rcases hd l hl with hl | rfl
      · exact hresolved l hl
      · exact Granted.later hp hstep.later
  | accepted hopen =>
    exact ⟨grantInv_tick hs.core, hs.missions.service _, hresolved, haccepted⟩
  | blocked hopen =>
    exact ⟨grantInv_tick hs.core, hs.missions.service _, hresolved, haccepted⟩

variable (P O scope o) in
/-- The discipline of the server around the dispatches. -/
def dispatchDiscipline : Program.Discipline (handler P O scope o) where
  inv := DispatchInv P scope o
  later s t := Later s.core t.core
  permitted := DispatchPermitted scope
  later_refl s := .refl _
  later_trans _ _ _ := .trans
  permitted_later s t op hl hp := by
    cases op with
    | core op =>
      exact (grantDiscipline o.platform O.toOracle scope).permitted_later _ _ op hl hp
    | markDispatchAccepted attemptId receipt version => exact Granted.later hp hl
    | resolveOffer n offerId lease => exact Granted.later hp hl
    | _ => trivial
  keeps op s hp hs :=
    ⟨(effect_handler op).inv hp hs, ((effect_handler op).step hp).later⟩

end Qualigence.Dispatch
