import Qualigence.Core.Footprint

/-! # Recovery under concurrency

Requests of several connections take turns on the store, one operation at a time. A run
that is recovered must be lost and must never have a completion, neither when the recovery
returns nor later. The recovery reads the lease and marks it lost in two operations, so
this depends on what is stored between them.
-/

namespace Qualigence.Core

open Foundation Protocol Lease RunnerControlStore

variable {τ : Type} [DecidableEq τ] (P : Platform) (O : Oracle) (scope : τ)

/-! ## Lost runs -/

/-- The lease of the run is marked lost and no completion is stored for it. -/
def RunLost (w : World τ) (runId : String) : Prop :=
  (∃ row, w.db.leases.get (scope, runId) = some row ∧ row.lostAt.isSome) ∧
    w.db.completions.get (scope, runId) = none

/-- The lease of the run is marked lost and not completed. -/
def LeaseLostFor (w : World τ) (runId : String) : Prop :=
  ∃ row, w.db.leases.get (scope, runId) = some row ∧ row.lostAt.isSome ∧ row.completedAt = none

/-- How the store moves on while other programs run. -/
def Later (w w' : World τ) : Prop := ∀ k, (w.db.run k).Evolves (w'.db.run k)

/-- Completions belong to completed leases, and the lineage of a pending offer is a lost
run. -/
structure RecoveryInv (w : World τ) : Prop where
  linked : ∀ k, (w.db.run k).Linked
  lineage : ∀ offerId p r, w.offers offerId = some p → p.recoveryOfRunId = some r →
    LeaseLostFor scope w r

/-- A pending offer may only be stored with the lineage of a lost run. -/
def OfferPermitted (w : World τ) : CoreOp → Prop
  | .setPendingOffer _ p => ∀ r, p.recoveryOfRunId = some r → LeaseLostFor scope w r
  | _ => True

variable {P O scope} {w w' w'' : World τ} {runId : String}

theorem Later.refl (w : World τ) : Later w w := fun k => .refl _

theorem Later.trans (h : Later w w') (h' : Later w' w'') : Later w w'' :=
  fun k => (h k).trans (h' k)

theorem LeaseLostFor.later (h : LeaseLostFor scope w runId) (hl : Later w w') :
    LeaseLostFor scope w' runId := by
  obtain ⟨row, hrow, hlost, hcomp⟩ := h
  obtain ⟨row', hrow', hcont⟩ := (hl _).lease row hrow
  have hn : ¬ isOpen row := by
    rw [isOpen_iff]
    rintro ⟨hc, -⟩
    simp [hc] at hlost
  refine ⟨row', hrow', ?_⟩
  rw [hcont.closed hn]
  exact ⟨hlost, hcomp⟩

theorem LeaseLostFor.runLost (h : LeaseLostFor scope w runId)
    (hl : (w.db.run (scope, runId)).Linked) : RunLost scope w runId := by
  obtain ⟨row, hrow, hlost, hcomp⟩ := h
  refine ⟨⟨row, hrow, hlost⟩, ?_⟩
  cases hc : w.db.completions.get (scope, runId) with
  | none => rfl
  | some c =>
    obtain ⟨row', hrow', hcomp', -⟩ := hl c hc
    have he : row = row' := Option.some.inj (hrow.symm.trans hrow')
    subst he
    simp [hcomp] at hcomp'

theorem later_handler (op : CoreOp) : Later w (handler P O scope op w).2 := by
  intro k
  cases hc : op.leaseCall with
  | none =>
    rw [run_handler hc]
    exact .refl _
  | some call => exact (runStep_handler hc).evolves

theorem linked_handler (op : CoreOp) {k : τ × String} (h : (w.db.run k).Linked) :
    ((handler P O scope op w).2.db.run k).Linked := by
  cases hc : op.leaseCall with
  | none =>
    rw [run_handler hc]
    exact h
  | some call => exact (runStep_handler hc).linked h

omit [DecidableEq τ] in
theorem onDb_offers {α : Type} (f : RunnerControlDb τ → StoreResult τ α) :
    (w.onDb O f).2.offers = w.offers := by
  unfold World.onDb
  cases O.fault w.draws <;> rfl

omit [DecidableEq τ] in
theorem onTrace_offers {α : Type} (f : Trace.TraceDb → Trace.TraceResult α) :
    (w.onTrace O f).2.offers = w.offers := by
  unfold World.onTrace
  cases O.fault w.draws <;> rfl

/-- Pending offers change only where an offer is stored. -/
theorem offers_handler (op : CoreOp) {offerId : String} {p : PendingOffer}
    (h : (handler P O scope op w).2.offers offerId = some p) :
    w.offers offerId = some p ∨ op = .setPendingOffer offerId p := by
  cases op with
  | setPendingOffer id q =>
    change Function.update w.offers id (some q) offerId = some p at h
    rcases eq_or_ne offerId id with rfl | hne
    · rw [Function.update_self] at h
      cases h
      exact .inr rfl
    · rw [Function.update_of_ne hne] at h
      exact .inl h
  | grantLease input => exact .inl (by rwa [handler, onDb_offers] at h)
  | renewLease input => exact .inl (by rwa [handler, onDb_offers] at h)
  | completeLease input => exact .inl (by rwa [handler, onDb_offers] at h)
  | markLeaseLost runId lostAt => exact .inl (by rwa [handler, onDb_offers] at h)
  | lease runId => exact .inl (by rwa [handler, onDb_offers] at h)
  | completion runId => exact .inl (by rwa [handler, onDb_offers] at h)
  | saveSession record => exact .inl (by rwa [handler, onDb_offers] at h)
  | closeSession sessionId closedAt => exact .inl (by rwa [handler, onDb_offers] at h)
  | issueResumeToken a b c => exact .inl (by rwa [handler, onDb_offers] at h)
  | rotateResumeToken input => exact .inl (by rwa [handler, onDb_offers] at h)
  | appendTraceEvent event => exact .inl (by rwa [handler, onTrace_offers] at h)
  | appendFinding finding payloadHash => exact .inl (by rwa [handler, onTrace_offers] at h)
  | _ => exact .inl h

variable (P O scope) in
/-- The discipline of the Core services: whatever is performed, runs only move on, and
offers keep the lineage of lost runs. -/
def recoveryDiscipline : Program.Discipline (handler P O scope) where
  inv := RecoveryInv scope
  later := Later
  permitted := OfferPermitted scope
  later_refl := .refl
  later_trans _ _ _ := .trans
  permitted_later s t op hl hp := by
    cases op with
    | setPendingOffer offerId p => exact fun r hr => (hp r hr).later hl
    | _ => trivial
  keeps op s hp hs := by
    refine ⟨⟨fun k => linked_handler op (hs.linked k), fun offerId p r ho hr => ?_⟩,
      later_handler op⟩
    rcases offers_handler op ho with ho | rfl
    · exact (hs.lineage offerId p r ho hr).later (later_handler op)
    · exact (hp r hr).later (later_handler _)

/-! ## Recovery marks the lease -/

/-- The operation does not mark the lease of a completed run. -/
def marksUncompleted (scope : τ) (w : World τ) : CoreOp → Bool
  | .markLeaseLost runId _ => (w.db.leases.get (scope, runId)).all (·.completedAt.isNone)
  | _ => true

/-- A recovery may mark the lease of a run only while it is not completed. -/
def MarkGuard (scope : τ) (w : World τ) (op : CoreOp) : Prop := marksUncompleted scope w op

/-- What a recovery has read stays true: the lease exists, and it is lost and not
completed if it was when it was read. -/
def LeaseRead (scope : τ) (w : World τ) (runId : String) (record : PersistedExecutionLease) :
    Prop :=
  (∃ row, w.db.leases.get (scope, runId) = some row) ∧
    (record.lostAt.isSome → record.completedAt = none → LeaseLostFor scope w runId)

theorem LeaseRead.later {record : PersistedExecutionLease}
    (h : LeaseRead scope w runId record) (hl : Later w w') :
    LeaseRead scope w' runId record := by
  obtain ⟨⟨row, hrow⟩, hlost⟩ := h
  obtain ⟨row', hrow', -⟩ := (hl _).lease row hrow
  exact ⟨⟨row', hrow'⟩, fun h1 h2 => (hlost h1 h2).later hl⟩

omit [DecidableEq τ] in
theorem onDb_eq_ok {α : Type} {f : RunnerControlDb τ → StoreResult τ α} {a : α}
    (h : (w.onDb O f).1 = .ok a) : (f w.db).1 = .ok a ∧ (w.onDb O f).2.db = (f w.db).2 := by
  unfold World.onDb at h ⊢
  cases hf : O.fault w.draws with
  | none =>
    simp only [hf] at h ⊢
    cases hr : (f w.db).1 with
    | ok b =>
      rw [hr] at h
      cases h
      exact ⟨rfl, trivial⟩
    | error e =>
      rw [hr] at h
      cases h
  | before =>
    simp only [hf] at h
    cases h
  | after =>
    simp only [hf] at h
    cases h

theorem leaseRead_handler {record : PersistedExecutionLease}
    (h : (handler P O scope (.lease runId) w).1 = .ok (some record)) :
    LeaseRead scope (handler P O scope (.lease runId) w).2 runId record := by
  obtain ⟨hr, hdb⟩ := onDb_eq_ok h
  obtain ⟨row, hrow, hl⟩ := lease_eq_ok hr
  obtain ⟨-, -, -, -, -, hlost, hcomp, -⟩ := toLease_eq_ok hl
  have hrow' : (handler P O scope (.lease runId) w).2.db.leases.get (scope, runId) =
      some row := by
    rw [← hrow]
    exact congrArg (fun db => db.leases.get (scope, runId)) hdb
  exact ⟨⟨row, hrow'⟩, fun h1 h2 => ⟨row, hrow', hlost ▸ h1, hcomp ▸ h2⟩⟩

theorem lost_handler {lostAt : Timestamp} {b : Bool}
    (hr : (handler P O scope (.markLeaseLost runId lostAt) w).1 = .ok b)
    (hrow : ∃ row, w.db.leases.get (scope, runId) = some row)
    (hok : MarkGuard scope w (.markLeaseLost runId lostAt)) :
    LeaseLostFor scope (handler P O scope (.markLeaseLost runId lostAt) w).2 runId := by
  obtain ⟨row, hrow⟩ := hrow
  have hcomp : row.completedAt = none := by
    simpa [MarkGuard, marksUncompleted, hrow] using hok
  obtain ⟨-, hdb⟩ := onDb_eq_ok hr
  unfold LeaseLostFor
  change ∃ row, (w.onDb O _).2.db.leases.get (scope, runId) = some row ∧ _
  rw [hdb]
  simp only [markLeaseLost, Table.get_update, hrow, Option.map_some]
  refine ⟨_, rfl, ?_⟩
  split
  · exact ⟨rfl, hcomp⟩
  · next hno =>
    refine ⟨?_, hcomp⟩
    have hk : row.key = (scope, runId) := Table.key_of_get hrow
    cases hl : row.lostAt with
    | none => simp [hk, isOpen, hl, hcomp] at hno
    | some t => rfl

/-! ## The services under interleaving -/

theorem permitted_of_settling (w : World τ) (op : CoreOp) (h : Writes settling op) :
    OfferPermitted scope w op := by
  cases op with
  | setPendingOffer offerId p => cases h
  | _ => trivial

/-- A program that stores no offer keeps what survives the steps of others. -/
theorem assured_frame {α : Type} {Q : World τ → Prop} {ok : World τ → CoreOp → Prop}
    (hQ : ∀ t t', Later t t' → Q t → Q t') {p : Service α} (hp : p.Uses (Writes settling))
    (hw : Q w) : p.Assured (recoveryDiscipline P O scope) ok (fun t _ => Q t) w :=
  Program.assured_of_uses permitted_of_settling hQ hp hw

namespace RunOwnershipService

variable (o : RunOwnershipOptions)

/-- Under the guard, the run a recovery returns is lost and stays so. -/
theorem assured_createRecoveryRun (lostRunId : String) (hw : RecoveryInv scope w) :
    (createRecoveryRun lostRunId).Assured (recoveryDiscipline P O scope) (MarkGuard scope)
      (fun t run => LeaseLostFor scope t run.recoveryOfRunId) w := by
  have hnames : ∀ t (record : PersistedExecutionLease), RecoveryInv scope t →
      LeaseLostFor scope t lostRunId →
      Program.Assured (recoveryDiscipline P O scope) (MarkGuard scope)
        (fun t (run : RecoveredRun) => LeaseLostFor scope t run.recoveryOfRunId)
        (do
          let runId ← generate
          let jobId ← generate
          return { job := recoveryJob record.job jobId runId
                   recoveryOfRunId := lostRunId }) t := by
    intro t record ht hl
    refine Program.assured_bind ht (assured_frame (fun _ _ hl hq => LeaseLostFor.later hq hl)
      (Program.uses_perform rfl) hl) fun t runId ht hl => ?_
    exact Program.assured_bind ht (assured_frame (fun _ _ hl hq => LeaseLostFor.later hq hl)
      (Program.uses_perform rfl) hl) fun t jobId ht hl => hl
  refine Program.assured_bind hw (M := fun t r => ∀ record, r = some record →
    LeaseRead scope t lostRunId record) (Program.assured_perform trivial ?_) ?_
  · rintro t r - - - hr record rfl
    exact leaseRead_handler hr
  · intro t stored ht hread
    cases stored with
    | none => trivial
    | some record =>
      have hrec := hread record rfl
      dsimp only
      split
      · trivial
      next hcomp =>
      refine Program.assured_bind ht (assured_frame (fun _ _ hl hq => LeaseRead.later hq hl)
        (uses_nowIso rfl) hrec) fun t now ht hrec => ?_
      split
      · trivial
      split
      · refine Program.assured_bind ht (M := fun t _ => LeaseLostFor scope t lostRunId)
          (Program.assured_perform trivial fun t' b hl ht' hok hr => ?_)
          fun t' _ ht' hl => hnames t' record ht' hl
        exact lost_handler hr (hrec.later hl).1 hok
      · next hlost =>
        have hsome : record.lostAt.isSome := Option.isSome_iff_ne_none.mpr (by simpa using hlost)
        exact hnames t record ht (hrec.2 hsome (by simpa using hcomp))

end RunOwnershipService

namespace ExecutionJobService

variable (o : RunOwnershipOptions)

/-- The lineage that a resolved request carries is that of a lost run. -/
theorem assured_resolveRecovery {request : OfferRequest} (hr : request.recoveryOfRunId = none)
    (hw : RecoveryInv scope w) :
    (resolveRecovery request).Assured (recoveryDiscipline P O scope) (MarkGuard scope)
      (fun t resolved => ∀ r, resolved.recoveryOfRunId = some r → LeaseLostFor scope t r) w := by
  refine Program.assured_bind hw (assured_frame (Q := fun _ => True) (fun _ _ _ _ => trivial)
    (Program.uses_perform rfl) trivial) fun t stored ht _ => ?_
  cases stored with
  | none =>
    intro r hs
    rw [hr] at hs
    cases hs
  | some stored =>
    dsimp only
    split
    · trivial
    split
    · trivial
    refine Program.assured_bind ht (assured_frame (Q := fun _ => True) (fun _ _ _ _ => trivial)
      (uses_nowIso rfl) trivial) fun t now ht _ => ?_
    split
    · trivial
    refine Program.assured_bind ht
      (RunOwnershipService.assured_createRecoveryRun request.job.runId ht)
      fun t run ht hl => ?_
    rintro r ⟨⟩
    exact hl

theorem assured_offer {request : OfferRequest} (hr : request.recoveryOfRunId = none)
    (hw : RecoveryInv scope w) :
    (offer o request).Assured (recoveryDiscipline P O scope) (MarkGuard scope)
      (fun _ _ => True) w := by
  unfold offer
  split
  · split <;> trivial
  · dsimp only
    split
    · trivial
    refine Program.assured_bind hw (assured_resolveRecovery hr hw) fun t resolved ht hl => ?_
    refine Program.assured_bind ht (assured_frame
      (Q := fun t => ∀ r, resolved.recoveryOfRunId = some r → LeaseLostFor scope t r)
      (fun _ _ hl hq r hr => (hq r hr).later hl) (Program.uses_perform rfl) hl)
      fun t offerId ht hl => ?_
    exact Program.assured_bind ht (M := fun _ _ => True)
      (Program.assured_perform hl fun _ _ _ _ _ _ => trivial) fun _ _ _ _ => trivial

theorem assured_accept {ok : World τ → CoreOp → Prop} (offerId : String)
    (hw : RecoveryInv scope w) :
    (accept o offerId).Assured (recoveryDiscipline P O scope) ok (fun _ _ => True) w := by
  refine Program.assured_bind hw (M := fun t r => ∀ p, r = some p → ∀ lost,
    p.recoveryOfRunId = some lost → LeaseLostFor scope t lost)
    (Program.assured_perform trivial ?_) ?_
  · rintro t r - ht - hr p rfl lost hp
    exact ht.lineage offerId p lost (Except.ok.inj hr) hp
  · intro t pending ht hl
    cases pending with
    | none => trivial
    | some pending =>
      dsimp only
      split
      · trivial
      refine Program.assured_bind ht (assured_frame
        (Q := fun t => ∀ r, pending.recoveryOfRunId = some r → LeaseLostFor scope t r)
        (fun _ _ hl hq r hr => (hq r hr).later hl)
        ((RunOwnershipService.uses_grant o _ _ _).mono settling_of_leasing) (hl pending rfl))
        fun t lease ht hl => ?_
      exact Program.assured_bind ht (M := fun _ _ => True)
        (Program.assured_perform hl fun _ _ _ _ _ _ => trivial) fun _ _ _ _ => trivial

end ExecutionJobService

/-! ## Requests of several connections -/

/-- A request that is under way on some connection. Offers are requested without a
lineage, as the application does. -/
inductive LeaseRequest where
  | grant (job : AcceptedExecutionJob) (owner : PersistedLeaseOwner)
  | renew (lease : ExecutionJobLease)
  | complete (lease : ExecutionJobLease) (completion : ExecutionCompletion)
  | completeStored (runId : String) (completion : ExecutionCompletion)
  | markLost (runId : String)
  | accept (offerId : String)
  | createRecoveryRun (lostRunId : String)
  | resolveRecovery (owner : PersistedLeaseOwner) (capabilities : RunnerCapabilities)
      (job : AcceptedExecutionJob) (requiredCapabilities : List String)
  | offer (owner : PersistedLeaseOwner) (capabilities : RunnerCapabilities)
      (job : AcceptedExecutionJob) (requiredCapabilities : List String)

/-- The run that a request has recovered. -/
inductive LeaseReply where
  | recovered (lostRunId : Option String)
  | done
  deriving DecidableEq

namespace LeaseRequest

open RunOwnershipService ExecutionJobService

/-- The program of a request. -/
def body (o : RunOwnershipOptions) : LeaseRequest → Service LeaseReply
  | .grant job owner => do
    let _ ← RunOwnershipService.grant o job owner none
    return .done
  | .renew lease => do
    let _ ← RunOwnershipService.renew o lease
    return .done
  | .complete lease completion => do
    let _ ← RunOwnershipService.complete o lease completion
    return .done
  | .completeStored runId completion => do
    let _ ← RunOwnershipService.completeStored o runId completion
    return .done
  | .markLost runId => do
    RunOwnershipService.markLost runId
    return .done
  | .accept offerId => do
    let _ ← ExecutionJobService.accept o offerId
    return .done
  | .createRecoveryRun lostRunId => do
    let run ← RunOwnershipService.createRecoveryRun lostRunId
    return .recovered (some run.recoveryOfRunId)
  | .resolveRecovery owner capabilities job requiredCapabilities => do
    let resolved ← ExecutionJobService.resolveRecovery
      { owner, capabilities, job, requiredCapabilities, recoveryOfRunId := none }
    return .recovered resolved.recoveryOfRunId
  | .offer owner capabilities job requiredCapabilities => do
    let _ ← ExecutionJobService.offer o
      { owner, capabilities, job, requiredCapabilities, recoveryOfRunId := none }
    return .done

/-- The requests that recover runs. -/
def recovers : LeaseRequest → Bool
  | .createRecoveryRun _ | .resolveRecovery .. | .offer .. => true
  | _ => false

/-- No recovery marks a lease whose completion was stored after it was read. -/
def Guard (scope : τ) (r : LeaseRequest) (w : World τ) (op : CoreOp) : Prop :=
  r.recovers → MarkGuard scope w op

instance (scope : τ) (r : LeaseRequest) (w : World τ) (op : CoreOp) :
    Decidable (Guard scope r w op) :=
  inferInstanceAs (Decidable (r.recovers = true → marksUncompleted scope w op = true))

/-- A reply names lost runs only. -/
def Lost (scope : τ) (w : World τ) : LeaseReply → Prop
  | .recovered lostRunId => ∀ r, lostRunId = some r → LeaseLostFor scope w r
  | .done => True

theorem Lost.later {reply : LeaseReply} (h : Lost scope w reply) (hl : Later w w') :
    Lost scope w' reply := by
  cases reply with
  | recovered lostRunId => exact fun r hr => (h r hr).later hl
  | done => trivial

theorem assured_body (o : RunOwnershipOptions) (r : LeaseRequest) (hw : RecoveryInv scope w) :
    (r.body o).Assured (recoveryDiscipline P O scope) (Guard scope r) (Lost scope) w := by
  have hdone : ∀ {α : Type} {p : Service α}, p.Uses (Writes settling) →
      Program.Assured (recoveryDiscipline P O scope) (Guard scope r) (Lost scope)
        (p.bind fun _ => Program.pure LeaseReply.done) w := by
    intro α p hp
    exact Program.assured_bind hw (assured_frame (Q := fun _ => True) (fun _ _ _ _ => trivial)
      hp trivial) fun _ _ _ _ => trivial
  cases r with
  | grant job owner => exact hdone ((uses_grant o job owner none).mono settling_of_leasing)
  | renew lease => exact hdone ((uses_renew o lease).mono settling_of_leasing)
  | complete lease completion => exact hdone (uses_complete o lease completion)
  | completeStored runId completion => exact hdone (uses_completeStored o runId completion)
  | markLost runId => exact hdone ((uses_markLost runId).mono settling_of_leasing)
  | accept offerId =>
    exact Program.assured_bind hw (assured_accept o offerId hw) fun _ _ _ _ => trivial
  | createRecoveryRun lostRunId =>
    refine Program.assured_bind hw ((assured_createRecoveryRun lostRunId hw).guard
      fun t op h => h rfl) fun t run ht hl => ?_
    rintro r ⟨⟩
    exact hl
  | resolveRecovery owner capabilities job requiredCapabilities =>
    exact Program.assured_bind hw ((assured_resolveRecovery rfl hw).guard
      fun t op h => h rfl) fun t resolved ht hl => hl
  | offer owner capabilities job requiredCapabilities =>
    exact Program.assured_bind hw ((assured_offer o rfl hw).guard fun t op h => h rfl)
      fun _ _ _ _ => trivial

end LeaseRequest

/-! ## Recovered runs -/

/-- Connections that share the store of one scope. -/
abbrev LeasePool (τ : Type) := Pool coreSignature CoreError LeaseReply (World τ) LeaseRequest

/-- The pool after a sequence of turns from an empty store. -/
def LeasePool.after (P : Platform) (O : Oracle) (scope : τ) (o : RunOwnershipOptions)
    (turns : List (Turn LeaseRequest)) : LeasePool τ :=
  Pool.runs (handler P O scope) (LeaseRequest.body o) ⟨.initial, []⟩ turns

/-- Every turn of the sequence meets the guard of its request. -/
def LeasePool.Guarded (P : Platform) (O : Oracle) (scope : τ) (o : RunOwnershipOptions)
    (turns : List (Turn LeaseRequest)) : Prop :=
  Pool.AllAllowed (handler P O scope) (LeaseRequest.body o) (LeaseRequest.Guard scope)
    ⟨.initial, []⟩ turns

theorem sound_after {o : RunOwnershipOptions} {turns : List (Turn LeaseRequest)}
    (hg : LeasePool.Guarded P O scope o turns) :
    Pool.Sound (recoveryDiscipline P O scope) (LeaseRequest.Guard scope)
      (fun _ => LeaseRequest.Lost scope) (LeasePool.after P O scope o turns) := by
  refine Pool.Sound.runs (fun _ s t a hl _ h => h.later hl)
    (fun r s hs => LeaseRequest.assured_body o r hs) ⟨⟨?_, ?_⟩, fun x hx => ?_⟩ hg
  · rintro k c ⟨⟩
  · rintro offerId p r ⟨⟩
  · cases hx

/-- A lost run stays lost and without a completion, whatever turns follow. -/
theorem runLost_after {o : RunOwnershipOptions} {turns : List (Turn LeaseRequest)}
    (hg : LeasePool.Guarded P O scope o turns) {lost : String}
    (hl : LeaseLostFor scope (LeasePool.after P O scope o turns).shared lost)
    (later : List (Turn LeaseRequest)) :
    RunLost scope (LeasePool.after P O scope o (turns ++ later)).shared lost := by
  have he : LeasePool.after P O scope o (turns ++ later) =
      Pool.runs (handler P O scope) (LeaseRequest.body o) (LeasePool.after P O scope o turns)
        later := List.foldl_append
  rw [he]
  have hlater : Later (LeasePool.after P O scope o turns).shared (Pool.runs (handler P O scope)
      (LeaseRequest.body o) (LeasePool.after P O scope o turns) later).shared :=
    Pool.shared_runs (I := fun t => Later (LeasePool.after P O scope o turns).shared t)
      (fun op s hs => hs.trans (later_handler op)) (.refl _) later
  have hlinked : ((Pool.runs (handler P O scope) (LeaseRequest.body o)
      (LeasePool.after P O scope o turns) later).shared.db.run (scope, lost)).Linked :=
    Pool.shared_runs (I := fun t : World τ => (t.db.run (scope, lost)).Linked)
      (fun op s hs => linked_handler op hs) ((sound_after hg).1.linked (scope, lost)) later
  exact (hl.later hlater).runLost hlinked

instance (P : Platform) (O : Oracle) (scope : τ) (o : RunOwnershipOptions)
    (turns : List (Turn LeaseRequest)) : Decidable (LeasePool.Guarded P O scope o turns) :=
  Pool.decidableAllAllowed _ turns

/-- In every run in which no recovery marks a lease that was completed after it was read:
a run that a recovery returned, or whose lineage a pending offer carries, is marked lost
and has no completion, now and in every later state. -/
theorem recovered_runs_never_complete (P : Platform) (O : Oracle) (scope : τ)
    (o : RunOwnershipOptions) (turns : List (Turn LeaseRequest))
    (hg : LeasePool.Guarded P O scope o turns) (later : List (Turn LeaseRequest)) :
    (∀ x ∈ (LeasePool.after P O scope o turns).threads, ∀ lost,
      x.2.result = some (.recovered (some lost)) →
      RunLost scope (LeasePool.after P O scope o (turns ++ later)).shared lost) ∧
    ∀ offerId pending lost,
      (LeasePool.after P O scope o turns).shared.offers offerId = some pending →
      pending.recoveryOfRunId = some lost →
      RunLost scope (LeasePool.after P O scope o (turns ++ later)).shared lost := by
  have hs := sound_after hg
  constructor
  · intro x hx lost hr
    have ha := hs.2 x hx
    rw [Program.result_eq_some hr] at ha
    exact runLost_after hg (ha lost rfl) later
  · intro offerId pending lost ho hp
    exact runLost_after hg (hs.1.lineage offerId pending lost ho hp) later

/-- A clock that moves on by five seconds, one known token and no failures. -/
def sampleOracle : Oracle where
  now n := 5000 * n
  generate n := if n = 0 then "token" else "id" ++ toString n
  acknowledged _ _ ids := ids
  fault _ := .none
  collaboratorFails _ := false

def sampleOptions : RunOwnershipOptions := ⟨samplePlatform, 30000⟩

/-- The lease that the first grant hands out. -/
def sampleLease : ExecutionJobLease := ⟨"job", "run", "token", 1, toISOString 35000⟩

/-- A run is granted and, once its lease has expired, recovered. -/
def recoverExpired : List (Turn LeaseRequest) :=
  [.spawn (.grant (sampleJob "job" "run") ⟨"runner", "session"⟩), .advance 0, .advance 0,
    .advance 0, .spawn (.markLost "other"), .advance 1, .advance 1, .spawn (.markLost "other"),
    .advance 2, .advance 2, .spawn (.createRecoveryRun "run"), .advance 3, .advance 3,
    .advance 3, .advance 3, .advance 3]

theorem recovered_runs_never_complete_expired :
    LeasePool.Guarded samplePlatform sampleOracle () sampleOptions recoverExpired ∧
    ((LeasePool.after samplePlatform sampleOracle () sampleOptions recoverExpired).threads.any
      fun x => x.2.result = some (.recovered (some "run"))) ∧
    RunLost () (LeasePool.after samplePlatform sampleOracle () sampleOptions
      recoverExpired).shared "run" := by
  have hg : LeasePool.Guarded samplePlatform sampleOracle () sampleOptions recoverExpired := by
    decide
  have hr : (LeasePool.after samplePlatform sampleOracle () sampleOptions
      recoverExpired).threads.any
        (fun x => x.2.result = some (.recovered (some "run"))) = true := by
    decide
  obtain ⟨x, hx, hres⟩ := List.any_eq_true.mp hr
  have hlost := (recovered_runs_never_complete samplePlatform sampleOracle () sampleOptions
    recoverExpired hg []).1 x hx "run" (of_decide_eq_true hres)
  rw [List.append_nil] at hlost
  exact ⟨hg, hr, hlost⟩

/-- A completion that was checked just before the expiry is stored between the read of a
recovery and its mark. -/
def completeDuringRecovery : List (Turn LeaseRequest) :=
  [.spawn (.grant (sampleJob "job" "run") ⟨"runner", "session"⟩), .advance 0, .advance 0,
    .advance 0, .spawn (.complete sampleLease ⟨"job", "run", .passed⟩), .advance 1, .advance 1,
    .advance 1, .spawn (.createRecoveryRun "run"), .advance 2, .advance 2, .advance 1,
    .advance 2, .advance 2, .advance 2]

/-- There the recovery returns a run that is completed and not lost. -/
theorem completed_run_recovered :
    ((LeasePool.after samplePlatform sampleOracle () sampleOptions
      completeDuringRecovery).threads.any
        fun x => x.2.result = some (.recovered (some "run"))) ∧
    ¬ RunLost () (LeasePool.after samplePlatform sampleOracle () sampleOptions
      completeDuringRecovery).shared "run" := by
  refine ⟨by decide, fun h => ?_⟩
  have hc : ((LeasePool.after samplePlatform sampleOracle () sampleOptions
      completeDuringRecovery).shared.db.completions.get ((), "run")).isSome = true := by
    decide
  rw [h.2] at hc
  cases hc

end Qualigence.Core
