import Qualigence.Core.Application
import Qualigence.Core.Recovery
import Qualigence.Protocol.ReadBack

/-! # Leases that were granted

A lease that a connection is given has its row in the lease table. This holds while other
programs take turns, because rows only move on and an offer remembers a lease only after
the store granted it.
-/

namespace Qualigence.Core

open Foundation Protocol Lease RunnerControlStore

variable {τ : Type} [DecidableEq τ] (P : Platform) (O : Oracle) (scope : τ)

/-- The run has a lease, for the job. -/
def Granted (w : World τ) (jobId runId : String) : Prop :=
  ∃ row, w.db.leases.get (scope, runId) = some row ∧ row.jobId = jobId

/-- What is parsed from a lease row is the job of the row. -/
def NamesJob (row : LeaseRow τ) : Prop :=
  ∀ job, parseJob P row.jobJson = .ok job → job.jobId = row.jobId

/-- The leases that offers remember were granted, and rows name the jobs they carry. -/
structure GrantInv (w : World τ) : Prop where
  remembered : ∀ offerId p lease, w.offers offerId = some p → p.lease = some lease →
    Granted scope w lease.jobId lease.runId
  named : ∀ k row, w.db.leases.get k = some row → NamesJob P row

/-- An offer may only be stored with a lease that was granted. -/
def GrantPermitted (w : World τ) : CoreOp → Prop
  | .setPendingOffer _ p => ∀ lease, p.lease = some lease →
    Granted scope w lease.jobId lease.runId
  | _ => True

variable {P O scope} {w w' : World τ} {jobId runId : String}

theorem Granted.later (h : Granted scope w jobId runId) (hl : Later w w') :
    Granted scope w' jobId runId := by
  obtain ⟨row, hrow, hj⟩ := h
  obtain ⟨row', hrow', hcont⟩ := (hl _).lease row hrow
  exact ⟨row', hrow', hcont.jobId.trans hj⟩

theorem jobId_of_parse {job parsed : AcceptedExecutionJob}
    (h : parseJob P job.toValue = .ok parsed) : parsed.jobId = job.jobId := by
  unfold parseJob at h
  split at h
  · next j hj =>
    cases h
    unfold parseExecutionJob at hj
    obtain ⟨raw, hv, hj⟩ := bind_eq_ok.mp hj
    obtain ⟨jobId, hid, hj⟩ := bind_eq_ok.mp hj
    obtain ⟨_, _, hj⟩ := bind_eq_ok.mp hj
    obtain ⟨_, _, hj⟩ := bind_eq_ok.mp hj
    obtain ⟨_, _, hj⟩ := bind_eq_ok.mp hj
    obtain ⟨_, _, hj⟩ := bind_eq_ok.mp hj
    obtain ⟨_, _, hj⟩ := bind_eq_ok.mp hj
    obtain ⟨_, _, hj⟩ := bind_eq_ok.mp hj
    split at hj
    · cases hj
    cases hj
    cases hv
    simp only [List.cons_append, JsValue.field_self] at hid
    have hfield := Job.nonEmptyString_eq_ok hid
    cases hfield
    rfl
  · cases h

/-- A lease that was read belongs to a row of its job. -/
theorem granted_of_lease {record : PersistedExecutionLease}
    (h : lease P scope runId w.db = .ok (some record)) (hi : GrantInv P scope w) :
    Granted scope w record.job.jobId runId := by
  obtain ⟨row, hrow, hl⟩ := lease_eq_ok h
  exact ⟨row, hrow, (hi.named _ row hrow record.job (toLease_eq_ok hl).1).symm⟩

omit [DecidableEq τ] in
theorem named_of_step {call : LeaseCall} {k : τ × String} {v v' : RunView τ}
    (h : RunStep scope k call v v') (hv : ∀ row, v.lease = some row → NamesJob P row) :
    ∀ row, v'.lease = some row → NamesJob P row := by
  cases h with
  | same => exact hv
  | granted hk =>
    rintro row ⟨⟩ parsed hp
    exact jobId_of_parse hp
  | renewed hk ho =>
    rintro row ⟨⟩
    have hrow := hv _ rfl
    exact hrow
  | completed hk ho hj =>
    rintro row ⟨⟩
    have hrow := hv _ rfl
    exact hrow
  | lost hk ho =>
    rintro row ⟨⟩
    have hrow := hv _ rfl
    exact hrow

variable (P O scope) in
/-- The discipline of grants: whatever is performed, rows only move on. -/
def grantDiscipline : Program.Discipline (handler P O scope) where
  inv := GrantInv P scope
  later := Later
  permitted := GrantPermitted scope
  later_refl := .refl
  later_trans _ _ _ := .trans
  permitted_later s t op hl hp := by
    cases op with
    | setPendingOffer offerId p => exact fun lease hlease => (hp lease hlease).later hl
    | _ => trivial
  keeps op s hp hs := by
    refine ⟨⟨fun offerId p lease ho hlease => ?_, fun k => ?_⟩, later_handler op⟩
    · rcases offers_handler op ho with ho | rfl
      · exact (hs.remembered offerId p lease ho hlease).later (later_handler op)
      · exact (hp lease hlease).later (later_handler _)
    · cases hc : op.leaseCall with
      | none =>
        have hrun : (handler P O scope op s).2.db.run k = s.db.run k := run_handler hc
        intro row hrow
        exact hs.named k row ((congrArg RunView.lease hrun).symm.trans hrow)
      | some call => exact named_of_step (runStep_handler hc) (hs.named k)

/-! ## The services -/

theorem grantPermitted_of_writes {parts : Part → Bool} (hparts : parts .offers = false)
    (w : World τ) (op : CoreOp) (h : Writes parts op) : GrantPermitted scope w op := by
  cases op with
  | setPendingOffer offerId p =>
    change parts .offers = true at h
    rw [hparts] at h
    cases h
  | _ => trivial

theorem reading_offers : reading .offers = false := rfl

section Services

variable {α : Type} {ok : World τ → CoreOp → Prop}

/-- A program that stores no offer keeps the discipline. -/
theorem assured_plain {parts : Part → Bool} (hparts : parts .offers = false) {p : Service α}
    (hp : p.Uses (Writes parts)) :
    p.Assured (grantDiscipline P O scope) ok (fun _ _ => True) w :=
  Program.assured_of_uses (Q := fun _ => True) (grantPermitted_of_writes hparts)
    (fun _ _ _ _ => trivial) hp trivial

/-- An operation that stores no offer leaves a granted lease. -/
theorem assured_perform_granted {op : CoreOp} (hop : ∀ t : World τ, GrantPermitted scope t op)
    (h : Granted scope w jobId runId) :
    (perform op).Assured (grantDiscipline P O scope) ok
      (fun t _ => Granted scope t jobId runId) w :=
  assured_perform op (hop w) fun _ _ hl _ _ _ => (h.later hl).later (later_handler op)

/-- The lease that is read of a run is granted, for the job it carries. -/
theorem assured_lease {runId : String} :
    (Store.lease runId).Assured (grantDiscipline P O scope) ok (fun t r => ∀ record,
      r = some record → Granted scope t record.job.jobId runId) w := by
  have hread : ∀ (t : World τ) (r : Option PersistedExecutionLease), GrantInv P scope t →
      (handler P O scope (.lease runId) t).1 = .ok r → ∀ record, r = some record →
        Granted scope (handler P O scope (.lease runId) t).2 record.job.jobId runId := by
    rintro t r ht hr record rfl
    obtain ⟨hread, _⟩ := onDb_eq_ok hr
    exact (granted_of_lease hread ht).later (later_handler _)
  exact assured_perform (.lease runId) trivial fun t r _ ht _ hr => hread t r ht hr

theorem granted_of_grantLease {input : PersistedExecutionLease} {t : World τ}
    (h : (handler P O scope (.grantLease input) t).1 = .ok true) :
    Granted scope (handler P O scope (.grantLease input) t).2 input.job.jobId
      input.job.runId := by
  obtain ⟨hreply, hdb⟩ := onDb_eq_ok h
  refine ⟨leaseValues scope input, ?_, rfl⟩
  change (t.onDb O (grantLease scope input)).2.db.leases.get _ = _
  rw [hdb]
  unfold grantLease at hreply ⊢
  split at hreply
  · next leases hi => exact (Table.get_of_insert hi).trans (if_pos rfl)
  · cases hreply

theorem RunOwnershipService.assured_grant (o : RunOwnershipOptions) (job : AcceptedExecutionJob)
    (owner : PersistedLeaseOwner) (recoveryOfRunId : Option String)
    (hw : GrantInv P scope w) :
    (grant o job owner recoveryOfRunId).Assured (grantDiscipline P O scope) ok
      (fun t lease => Granted scope t lease.jobId lease.runId) w := by
  refine Program.assured_bind hw (assured_plain reading_offers (Program.uses_perform rfl))
    fun t token ht _ => ?_
  refine Program.assured_bind ht (assured_plain reading_offers (Program.uses_perform rfl))
    fun t now ht _ => ?_
  refine Program.assured_bind ht (M := fun t (granted : Bool) => granted = true →
    Granted scope t job.jobId job.runId) (Program.assured_perform trivial ?_) ?_
  · rintro t r - - - hr rfl
    exact granted_of_grantLease hr
  · intro t granted ht hg
    split
    · next htrue => exact hg htrue
    · trivial

theorem ExecutionJobService.assured_offer_granted (o : RunOwnershipOptions)
    (request : OfferRequest) (hw : GrantInv P scope w) :
    (offer o request).Assured (grantDiscipline P O scope) ok (fun _ _ => True) w := by
  unfold offer
  split
  · split <;> trivial
  dsimp only
  split
  · trivial
  refine Program.assured_bind hw (assured_plain rfl
    ((uses_resolveRecovery _).mono settling_of_leasing)) fun t resolved ht _ => ?_
  refine Program.assured_bind ht (assured_plain reading_offers (Program.uses_perform rfl))
    fun t id ht _ => ?_
  refine Program.assured_bind ht (M := fun _ _ => True)
    (Program.assured_perform ?_ fun _ _ _ _ _ _ => trivial) fun _ _ _ _ => trivial
  rintro lease ⟨⟩

theorem ExecutionJobService.assured_accept_granted (o : RunOwnershipOptions) (offerId : String)
    (hw : GrantInv P scope w) :
    (accept o offerId).Assured (grantDiscipline P O scope) ok
      (fun t lease => Granted scope t lease.jobId lease.runId) w := by
  refine Program.assured_bind hw (M := fun t r => ∀ p, r = some p → ∀ lease,
    p.lease = some lease → Granted scope t lease.jobId lease.runId)
    (Program.assured_perform trivial ?_) ?_
  · rintro t r - ht - hr p rfl lease hp
    exact ht.remembered offerId p lease (Except.ok.inj hr) hp
  · intro t pending ht hl
    cases pending with
    | none => trivial
    | some pending =>
      dsimp only
      split
      · next lease hlease => exact hl pending rfl lease hlease
      · refine Program.assured_bind ht (RunOwnershipService.assured_grant o _ _ _ ht)
          fun t lease ht hg => ?_
        refine Program.assured_bind ht (M := fun t _ => Granted scope t lease.jobId lease.runId)
          (assured_perform _ ?_ fun u r hl' _ _ _ => (hg.later hl').later (later_handler _))
          fun _ _ _ hg => hg
        rintro l ⟨⟩
        exact hg

end Services

/-! ## The application -/

namespace CoreRunnerProtocolApplication

variable {ok : World τ → CoreOp → Prop} (o : CoreOptions)

theorem assured_createOffer (sessionId : String) (job : AcceptedExecutionJob)
    (requirements : List String) (hw : GrantInv P scope w) :
    (createOffer o sessionId job requirements).Assured (grantDiscipline P O scope) ok
      (fun _ _ => True) w := by
  refine Program.assured_bind hw (assured_plain reading_offers (uses_requireSession rfl sessionId))
    fun t session ht _ => ?_
  refine Program.assured_bind ht (assured_plain reading_offers (Program.uses_perform rfl))
    fun t byJob ht _ => ?_
  refine Program.assured_bind ht (assured_plain reading_offers (Program.uses_perform rfl))
    fun t byRun ht _ => ?_
  split
  · refine Program.assured_bind ht (ExecutionJobService.assured_offer_granted _ _ ht)
      fun t offer ht _ => ?_
    exact Program.assured_bind ht (M := fun _ _ => True)
      (Program.assured_perform trivial fun _ _ _ _ _ _ => trivial) fun _ _ _ _ => trivial
  · split <;> trivial
  · trivial

/-- A lease that an acceptance returns was granted. -/
theorem assured_accept (sessionId offerId : String) (hw : GrantInv P scope w) :
    (accept o sessionId offerId).Assured (grantDiscipline P O scope) ok
      (fun t lease => Granted scope t lease.jobId lease.runId) w := by
  refine Program.assured_bind hw (assured_plain reading_offers (uses_requireSession rfl sessionId))
    fun t session ht _ => ?_
  refine Program.assured_bind ht (ExecutionJobService.assured_accept_granted _ offerId ht)
    fun t lease ht hg => ?_
  refine Program.assured_bind ht (M := fun t _ => Granted scope t lease.jobId lease.runId)
    (assured_perform_granted (fun _ => trivial) hg) fun t offered ht hg => ?_
  cases offered with
  | none => exact hg
  | some offered =>
    exact Program.assured_bind ht (M := fun t _ => Granted scope t lease.jobId lease.runId)
      (assured_perform_granted (fun _ => trivial) hg) fun _ _ _ hg => hg

end CoreRunnerProtocolApplication

open CoreRunnerProtocolApplication in
/-- Every call of the application keeps the discipline of grants. -/
theorem assured_call {ok : World τ → CoreOp → Prop} (o : CoreOptions) (call : AppCall)
    (hw : GrantInv P scope w) :
    (call.body o).Assured (grantDiscipline P O scope) ok (fun _ _ => True) w := by
  have hdone : ∀ {α : Type} {parts : Part → Bool} {p : Service α} {f : α → AppReply},
      parts .offers = false → p.Uses (Writes parts) →
      Program.Assured (grantDiscipline P O scope) ok (fun _ _ => True)
        (p.bind fun a => Program.pure (f a)) w := by
    intro α parts p f hparts hp
    exact Program.assured_bind hw (assured_plain hparts hp) fun _ _ _ _ => trivial
  cases call with
  | openSession hello identity =>
    exact hdone rfl (RunnerSessionService.uses_register o hello identity)
  | createOffer sessionId job requirements =>
    exact Program.assured_bind hw (assured_createOffer o _ _ _ hw) fun _ _ _ _ => trivial
  | accept sessionId offerId =>
    exact Program.assured_bind hw (assured_accept o _ _ hw) fun _ _ _ _ => trivial
  | renew sessionId lease => exact hdone rfl (uses_renew o sessionId lease)
  | ingest sessionId batch => exact hdone rfl (RunnerSessionService.uses_ingest o sessionId batch)
  | complete sessionId lease completion =>
    exact hdone rfl (uses_complete o sessionId lease completion)
  | closeSession sessionId => exact hdone rfl (RunnerSessionService.uses_closeSession sessionId)

end Qualigence.Core
