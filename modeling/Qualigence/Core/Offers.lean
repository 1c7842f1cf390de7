import Qualigence.Core.Recovery

/-! # Offers, leases and recorded runs

An offer is created for a session, kept in memory under its id and, for the run that was
asked for, in a second map; an acceptance names the offer only. What the calls of the
application do to this memory is said once, call by call, and both laws about leases
follow from one invariant over whole histories: a lease goes to the session the job was
offered to, and the run it names has been recorded.
-/

namespace Qualigence.Core

open Foundation Protocol Lease

/-- What the process remembers of offers, with the runs it has recorded. -/
structure OfferMemory where
  offers : String → Option PendingOffer
  offersByJob : String → Option CanonicalOffer
  offersByRun : String → Option CanonicalOffer
  recordedRuns : List AcceptedExecutionJob

def World.offerMemory {τ : Type} (w : World τ) : OfferMemory :=
  ⟨w.offers, w.offersByJob, w.offersByRun, w.recordedRuns⟩

section Frame

variable {τ α : Type} [DecidableEq τ] {P : Platform} {O : Oracle} {scope : τ} {w : World τ}

omit [DecidableEq τ] in
theorem offerMemory_onDb (f : RunnerControlDb τ → StoreResult τ α) :
    (w.onDb O f).2.offerMemory = w.offerMemory := by
  unfold World.onDb
  cases O.fault w.draws <;> rfl

omit [DecidableEq τ] in
theorem offerMemory_onTrace (f : Trace.TraceDb → Trace.TraceResult α) :
    (w.onTrace O f).2.offerMemory = w.offerMemory := by
  unfold World.onTrace
  cases O.fault w.draws <;> rfl

theorem offerMemory_handler {op : CoreOp} (ho : op.writes ≠ .offers)
    (hr : op.writes ≠ .recordedRuns) :
    (handler P O scope op w).2.offerMemory = w.offerMemory := by
  cases op with
  | setPendingOffer offerId p => exact absurd rfl ho
  | rememberOffer jobId runId canonical sessionId offer => exact absurd rfl ho
  | recordRun job => exact absurd rfl hr
  | grantLease input => exact offerMemory_onDb _
  | renewLease input => exact offerMemory_onDb _
  | completeLease input => exact offerMemory_onDb _
  | markLeaseLost runId lostAt => exact offerMemory_onDb _
  | lease runId => exact offerMemory_onDb _
  | completion runId => exact offerMemory_onDb _
  | saveSession record => exact offerMemory_onDb _
  | closeSession sessionId closedAt => exact offerMemory_onDb _
  | issueResumeToken tokenHash binding expiresAt => exact offerMemory_onDb _
  | rotateResumeToken input => exact offerMemory_onDb _
  | appendTraceEvent event => exact offerMemory_onTrace _
  | appendFinding finding payloadHash => exact offerMemory_onTrace _
  | _ => rfl

/-- A service whose footprint has no offers leaves them as they are. -/
theorem ends_frame {parts : Part → Bool} (ho : parts .offers = false)
    (hr : parts .recordedRuns = false) {p : Service α} (hp : p.Uses (Writes parts)) :
    p.Ends (handler P O scope) (fun _ t => t.offerMemory = w.offerMemory) w := by
  refine Program.run_of_uses (R := fun s t : World τ => t.offerMemory = s.offerMemory)
    (fun _ => rfl) (fun _ _ _ h h' => h'.trans h) (fun op s hop => ?_) hp w
  refine offerMemory_handler ?_ ?_ <;> intro h <;> simp_all [Writes]

end Frame

/-! ## What a call does to the memory -/

/-- The session and the offer of an answered `createOffer`. -/
def offerOf : AppCall × Except CoreError AppReply → Option (String × ExecutionJobOffer)
  | (.createOffer sessionId _ _, .ok (.offer offer)) => some (sessionId, offer)
  | _ => none

/-- The session, the offer's id and the lease of an answered `accept`. -/
def leaseOf :
    AppCall × Except CoreError AppReply → Option (String × String × ExecutionJobLease)
  | (.accept sessionId offerId, .ok (.lease lease)) => some (sessionId, offerId, lease)
  | _ => none

/-- The lease names the job and the run of the offer. -/
def Names (lease : ExecutionJobLease) (job : AcceptedExecutionJob) : Prop :=
  lease.jobId = job.jobId ∧ lease.runId = job.runId

instance (lease : ExecutionJobLease) (job : AcceptedExecutionJob) : Decidable (Names lease job) :=
  inferInstanceAs (Decidable (_ ∧ _))

/-- An offer is stored under an id. -/
def OfferMemory.setOffer (m : OfferMemory) (offerId : String) (pending : PendingOffer) :
    OfferMemory :=
  { m with offers := Function.update m.offers offerId (some pending) }

/-- The request for an offer is remembered under its job and its run. -/
def OfferMemory.remember (m : OfferMemory) (job : AcceptedExecutionJob)
    (record : CanonicalOffer) : OfferMemory :=
  { m with
    offersByJob := Function.update m.offersByJob job.jobId (some record)
    offersByRun := Function.update m.offersByRun job.runId (some record) }

/-- The job that is remembered under the run of a lease, if any, is recorded. -/
def OfferMemory.record (m : OfferMemory) (lease : ExecutionJobLease) : OfferMemory :=
  { m with
    recordedRuns := m.recordedRuns ++ ((m.offersByRun lease.runId).map (·.offer.job)).toList }

/-- What a call with its reply can do to the memory. -/
inductive OfferStep (m : OfferMemory) :
    AppCall × Except CoreError AppReply → OfferMemory → Prop
  | same {x} (hx : leaseOf x = none) : OfferStep m x m
  | offered {sessionId runnerId : String} {job : AcceptedExecutionJob}
      {requirements : List String} {offer : ExecutionJobOffer} {lineage : Option String}
      {record : CanonicalOffer} (hnew : m.offersByRun job.runId = none)
      (hrecord : record.offer = offer) (hjob : lineage = none → offer.job.runId = job.runId) :
      OfferStep m (.createOffer sessionId job requirements, .ok (.offer offer))
        ((m.setOffer offer.offerId ⟨offer, ⟨runnerId, sessionId⟩, lineage, none⟩).remember job
          record)
  | accepted {sessionId offerId : String} {pending : PendingOffer} {lease : ExecutionJobLease}
      {reply : Except CoreError AppReply} (hp : m.offers offerId = some pending)
      (hl : pending.lease = some lease ∨ Names lease pending.offer.job)
      (hr : ∀ a, leaseOf (.accept sessionId offerId, reply) = some a → a.2.2 = lease) :
      OfferStep m (.accept sessionId offerId, reply)
        ((m.setOffer offerId { pending with lease := some lease }).record lease)

section Calls

variable {τ α : Type} [DecidableEq τ] {P : Platform} {O : Oracle} {scope : τ} {w : World τ}

/-- A request that carries no lineage after recovery is for the job it was made for. -/
theorem returns_resolveRecovery (request : OfferRequest) :
    (ExecutionJobService.resolveRecovery request).Returns fun resolved =>
      resolved.recoveryOfRunId = none → resolved.job = request.job := by
  refine Program.returns_bind fun stored => ?_
  cases stored with
  | none => exact fun _ => rfl
  | some stored =>
    dsimp only
    split
    · trivial
    split
    · trivial
    refine Program.returns_bind fun t => ?_
    split
    · trivial
    · refine Program.returns_bind fun recovered => ?_
      rintro ⟨⟩

theorem returns_grant (o : RunOwnershipOptions) (job : AcceptedExecutionJob)
    (owner : PersistedLeaseOwner) (lineage : Option String) :
    (RunOwnershipService.grant o job owner lineage).Returns fun lease => Names lease job := by
  refine Program.returns_bind fun token => ?_
  refine Program.returns_bind fun n => ?_
  refine Program.returns_bind fun granted => ?_
  split
  · exact ⟨rfl, rfl⟩
  · trivial

/-- An offer becomes pending, for the run it was requested for or for a recovered one. -/
theorem ends_offer (o : RunOwnershipOptions) (request : OfferRequest) :
    (ExecutionJobService.offer o request).Ends (handler P O scope) (fun r t => match r with
      | .error _ => t.offerMemory = w.offerMemory
      | .ok offer => ∃ lineage, (lineage = none → offer.job.runId = request.job.runId) ∧
          t.offerMemory =
            w.offerMemory.setOffer offer.offerId ⟨offer, request.owner, lineage, none⟩) w := by
  unfold ExecutionJobService.offer
  split
  · split <;> rfl
  · next job hjob =>
    dsimp only
    split
    · rfl
    refine Program.ends_bind (fun resolved t => t.offerMemory = w.offerMemory ∧
        (resolved.recoveryOfRunId = none → resolved.job = job))
      (((ends_frame rfl rfl (ExecutionJobService.uses_resolveRecovery _)).and
        (returns_resolveRecovery _).ends).mono ?_) fun resolved t ht => ?_
    · rintro (e | resolved) t ⟨hm, hr⟩
      · exact hm
      · exact ⟨hm, hr resolved rfl⟩
    obtain ⟨hm, hres⟩ := ht
    refine Program.ends_bind (fun _ t => t.offerMemory = w.offerMemory)
      (ends_perform .generate hm) fun offerId t hm => ?_
    refine ⟨resolved.recoveryOfRunId, fun hl => ?_, ?_⟩
    · change resolved.job.runId = _
      rw [hres hl]
      exact (identity_of_parse_toValue hjob).2
    · rw [← hm]
      rfl

/-- An acceptance returns the lease its offer has or gets. -/
theorem ends_accept (o : RunOwnershipOptions) (offerId : String) :
    (ExecutionJobService.accept o offerId).Ends (handler P O scope) (fun r t => match r with
      | .error _ => t.offerMemory = w.offerMemory
      | .ok lease => ∃ pending, w.offers offerId = some pending ∧
          (pending.lease = some lease ∨ Names lease pending.offer.job) ∧
          t.offerMemory =
            w.offerMemory.setOffer offerId { pending with lease := some lease }) w := by
  refine Program.ends_bind (fun r t => r = w.offers offerId ∧ t = w)
    (ends_perform (.pendingOffer offerId) ⟨rfl, rfl⟩) ?_
  rintro r t ⟨hr, rfl⟩
  cases r with
  | none => rfl
  | some pending =>
    dsimp only
    split
    · next lease hl =>
      refine ⟨pending, hr.symm, .inl hl, ?_⟩
      have he : { pending with lease := some lease } = pending := by
        rw [← hl]
      unfold OfferMemory.setOffer
      rw [he, hr]
      change t.offerMemory = { t.offerMemory with
        offers := Function.update t.offers offerId (t.offers offerId) }
      rw [Function.update_eq_self]
      rfl
    · refine Program.ends_bind (fun lease s => s.offerMemory = t.offerMemory ∧
          Names lease pending.offer.job)
        (((ends_frame rfl rfl (RunOwnershipService.uses_grant o _ _ _)).and
          (returns_grant o _ _ _).ends).mono ?_) fun lease s hs => ?_
      · rintro (e | lease) s ⟨hm, hn⟩
        · exact hm
        · exact ⟨hm, hn lease rfl⟩
      obtain ⟨hm, hn⟩ := hs
      refine ⟨pending, hr.symm, .inr hn, ?_⟩
      rw [← hm]
      rfl

theorem ends_requireSession (sessionId : String) :
    (CoreRunnerProtocolApplication.requireSession sessionId).Ends (handler P O scope)
      (fun _ t => t = w) w := by
  refine Program.ends_bind (fun _ t => t = w) (ends_perform (.session sessionId) rfl) ?_
  rintro (_ | session) t rfl <;> rfl

variable (o : CoreOptions)

theorem offerStep_createOffer (sessionId : String) (job : AcceptedExecutionJob)
    (requirements : List String) :
    (CoreRunnerProtocolApplication.createOffer o sessionId job requirements).Ends
      (handler P O scope) (fun r t => OfferStep w.offerMemory
        (.createOffer sessionId job requirements, r.map .offer) t.offerMemory) w := by
  refine Program.ends_bind (fun _ t => t = w) ((ends_requireSession sessionId).mono ?_) ?_
  · rintro (e | session) t rfl
    · exact .same rfl
    · rfl
  rintro session t rfl
  dsimp only
  refine Program.ends_bind (fun _ s => s = t) (ends_perform (.offerByJob job.jobId) rfl) ?_
  rintro byJob s rfl
  refine Program.ends_bind (fun r t => r = s.offersByRun job.runId ∧ t = s)
    (ends_perform (.offerByRun job.runId) ⟨rfl, rfl⟩) ?_
  rintro byRun t ⟨hrun, rfl⟩
  split
  · -- neither map knows the request: a new offer
    refine Program.ends_bind (fun offer s => ∃ lineage,
        (lineage = none → offer.job.runId = job.runId) ∧ s.offerMemory =
          t.offerMemory.setOffer offer.offerId
            ⟨offer, ⟨session.identity.runnerId, sessionId⟩, lineage, none⟩)
      ((ends_offer _ _).mono ?_) ?_
    · rintro (e | offer) s hs
      · change s.offerMemory = _ at hs
        change OfferStep _ _ s.offerMemory
        rw [hs]
        exact .same rfl
      · exact hs
    rintro offer s ⟨lineage, hl, hs⟩
    change OfferStep _ _ (s.offerMemory.remember job ⟨s.draws, _, sessionId, offer⟩)
    rw [hs]
    exact .offered hrun.symm rfl hl
  · split
    · exact .same rfl
    · exact .same rfl
  · exact .same rfl

theorem offerStep_accept (sessionId offerId : String) :
    (CoreRunnerProtocolApplication.accept o sessionId offerId).Ends (handler P O scope)
      (fun r t => OfferStep w.offerMemory (.accept sessionId offerId, r.map .lease)
        t.offerMemory) w := by
  refine Program.ends_bind (fun _ t => t = w) ((ends_requireSession sessionId).mono ?_) ?_
  · rintro (e | session) t rfl
    · exact .same rfl
    · rfl
  rintro - t rfl
  refine Program.ends_bind (fun lease s => ∃ pending, t.offers offerId = some pending ∧
      (pending.lease = some lease ∨ Names lease pending.offer.job) ∧ s.offerMemory =
        t.offerMemory.setOffer offerId { pending with lease := some lease })
    ((ends_accept _ _).mono ?_) ?_
  · rintro (e | lease) s hs
    · change s.offerMemory = _ at hs
      change OfferStep _ _ s.offerMemory
      rw [hs]
      exact .same rfl
    · exact hs
  rintro lease s ⟨pending, hp, hl, hs⟩
  refine Program.ends_bind (fun r t => r = s.offersByRun lease.runId ∧ t = s)
    (ends_perform (.offerByRun lease.runId) ⟨rfl, rfl⟩) ?_
  rintro r u ⟨hr, rfl⟩
  have hstep : ∀ reply, (∀ a, leaseOf (.accept sessionId offerId, reply) = some a →
      a.2.2 = lease) → OfferStep t.offerMemory (.accept sessionId offerId, reply)
        (u.offerMemory.record lease) := by
    intro reply hreply
    rw [hs]
    exact .accepted hp hl hreply
  have hrec : u.offerMemory.record lease = { u.offerMemory with
      recordedRuns := u.recordedRuns ++ (r.map (·.offer.job)).toList } := by
    rw [hr]
    rfl
  rw [hrec] at hstep
  cases r with
  | none =>
    rw [Option.map_none, Option.toList_none, List.append_nil] at hstep
    exact hstep _ (by rintro _ ⟨⟩; rfl)
  | some offered =>
    refine Program.ends_bind (fun _ v => v.offerMemory = { u.offerMemory with
        recordedRuns := u.recordedRuns ++ [offered.offer.job] })
      (ends_perform (.recordRun _) ?_) ?_
    · cases (handler P O scope (.recordRun offered.offer.job) u).1 with
      | ok _ => rfl
      | error e => exact hstep _ (by rintro _ ⟨⟩)
    · rintro - v hv
      change OfferStep _ _ v.offerMemory
      rw [hv]
      exact hstep _ (by rintro _ ⟨⟩; rfl)

/-- A call that writes no offers and returns no lease of an offer makes no step. -/
theorem offerStep_of_uses {parts : Part → Bool} (ho : parts .offers = false)
    (hr : parts .recordedRuns = false) {call : AppCall} (hc : ∀ r, leaseOf (call, r) = none)
    {p : Service AppReply} (hp : p.Uses (Writes parts)) :
    OfferStep w.offerMemory (call, (p.run (handler P O scope) w).1)
      (p.run (handler P O scope) w).2.offerMemory := by
  have hm : (p.run (handler P O scope) w).2.offerMemory = w.offerMemory :=
    ends_frame ho hr hp
  rw [hm]
  exact .same (hc _)

/-- Every call makes one of the steps. -/
theorem offerStep_call (call : AppCall) :
    OfferStep w.offerMemory (call, ((call.body o).run (handler P O scope) w).1)
      ((call.body o).run (handler P O scope) w).2.offerMemory := by
  cases call with
  | openSession hello identity =>
    exact offerStep_of_uses rfl rfl (fun _ => rfl)
      (Program.uses_bind (RunnerSessionService.uses_register o hello identity) fun _ => trivial)
  | createOffer sessionId job requirements =>
    unfold AppCall.body
    rw [Program.run_map]
    exact offerStep_createOffer o sessionId job requirements
  | accept sessionId offerId =>
    unfold AppCall.body
    rw [Program.run_map]
    exact offerStep_accept o sessionId offerId
  | renew sessionId lease =>
    exact offerStep_of_uses rfl rfl (fun _ => rfl)
      (Program.uses_bind (CoreRunnerProtocolApplication.uses_renew o sessionId lease)
        fun _ => trivial)
  | ingest sessionId batch =>
    exact offerStep_of_uses rfl rfl (fun _ => rfl)
      (Program.uses_bind (RunnerSessionService.uses_ingest o sessionId batch) fun _ => trivial)
  | complete sessionId lease completion =>
    exact offerStep_of_uses rfl rfl (fun _ => rfl)
      (Program.uses_bind (CoreRunnerProtocolApplication.uses_complete o sessionId lease completion)
        fun _ => trivial)
  | closeSession sessionId =>
    exact offerStep_of_uses rfl rfl (fun _ => rfl)
      (Program.uses_bind (RunnerSessionService.uses_closeSession sessionId) fun _ => trivial)

end Calls

/-! ## The invariant -/

abbrev Replies := List (AppCall × Except CoreError AppReply)

/-- Every pending offer was returned to the session that owns it, its lease names its job,
and the run of an offer without a lineage is found by its name. -/
structure OffersInv (replies : Replies) (m : OfferMemory) : Prop where
  returned : ∀ offerId p, m.offers offerId = some p → p.offer.offerId = offerId ∧
    ∃ x ∈ replies, offerOf x = some (p.owner.sessionId, p.offer)
  leased : ∀ offerId p lease, m.offers offerId = some p → p.lease = some lease →
    Names lease p.offer.job
  found : ∀ offerId p, m.offers offerId = some p → p.recoveryOfRunId = none →
    ∃ record, m.offersByRun p.offer.job.runId = some record ∧ record.offer.job = p.offer.job

section Invariant

variable {replies : Replies} {m m' : OfferMemory} {offerId : String} {pending : PendingOffer}

theorem setOffer_offers {offerId' : String} {p : PendingOffer}
    (h : (m.setOffer offerId pending).offers offerId' = some p) :
    (offerId' = offerId ∧ p = pending) ∨ (offerId' ≠ offerId ∧ m.offers offerId' = some p) := by
  change Function.update m.offers offerId (some pending) offerId' = some p at h
  rcases eq_or_ne offerId' offerId with rfl | hne
  · rw [Function.update_self] at h
    cases h
    exact .inl ⟨rfl, rfl⟩
  · rw [Function.update_of_ne hne] at h
    exact .inr ⟨hne, h⟩

theorem OffersInv.mono (hi : OffersInv replies m)
    (x : AppCall × Except CoreError AppReply) : OffersInv (x :: replies) m := by
  refine ⟨fun offerId p hp => ?_, hi.leased, hi.found⟩
  obtain ⟨hid, y, hy, ho⟩ := hi.returned offerId p hp
  exact ⟨hid, y, List.mem_cons_of_mem x hy, ho⟩

/-- The lease that an acceptance returns names the job of the offer. -/
theorem OffersInv.names (hi : OffersInv replies m) (hp : m.offers offerId = some pending)
    {lease : ExecutionJobLease}
    (hl : pending.lease = some lease ∨ Names lease pending.offer.job) :
    Names lease pending.offer.job := by
  rcases hl with hl | hl
  · exact hi.leased offerId pending lease hp hl
  · exact hl

theorem OffersInv.step (hi : OffersInv replies m) {x : AppCall × Except CoreError AppReply}
    (hs : OfferStep m x m') : OffersInv (x :: replies) m' := by
  cases hs with
  | same hx => exact hi.mono x
  | @offered sessionId runnerId job requirements offer lineage record hnew hrecord hjob =>
    refine ⟨fun offerId p hp => ?_, fun offerId p lease hp hl => ?_, fun offerId p hp hl => ?_⟩
    · rcases setOffer_offers hp with ⟨rfl, rfl⟩ | ⟨-, hp⟩
      · exact ⟨rfl, _, List.mem_cons_self, rfl⟩
      · exact (hi.mono _).returned offerId p hp
    · rcases setOffer_offers hp with ⟨rfl, rfl⟩ | ⟨-, hp⟩
      · cases hl
      · exact hi.leased offerId p lease hp hl
    · change ∃ r, Function.update m.offersByRun job.runId (some record) _ = some r ∧ _
      rcases setOffer_offers hp with ⟨rfl, rfl⟩ | ⟨-, hp⟩
      · change ∃ r, Function.update m.offersByRun job.runId (some record) offer.job.runId =
          some r ∧ _
        rw [hjob hl, Function.update_self]
        exact ⟨record, rfl, by rw [hrecord]⟩
      · -- the run of an older offer has its own entry already
        obtain ⟨r, hr, hj⟩ := hi.found offerId p hp hl
        have hne : p.offer.job.runId ≠ job.runId := by
          intro he
          rw [he, hnew] at hr
          cases hr
        rw [Function.update_of_ne hne]
        exact ⟨r, hr, hj⟩
  | @accepted sessionId offerId pending lease reply hp hl hr =>
    obtain ⟨hid, hret⟩ := (hi.mono (.accept sessionId offerId, reply)).returned offerId pending hp
    refine ⟨fun id p h => ?_, fun id p l h hl' => ?_, fun id p h hn => ?_⟩
    · rcases setOffer_offers h with ⟨rfl, rfl⟩ | ⟨-, h⟩
      · exact ⟨hid, hret⟩
      · exact (hi.mono _).returned id p h
    · rcases setOffer_offers h with ⟨rfl, rfl⟩ | ⟨-, h⟩
      · cases hl'
        exact hi.names hp hl
      · exact hi.leased id p l h hl'
    · rcases setOffer_offers h with ⟨rfl, rfl⟩ | ⟨-, h⟩
      · exact hi.found id pending hp hn
      · exact hi.found id p h hn

end Invariant

/-! ## Leases go to the session of the offer -/

/-- Every lease that was returned had been offered before, with its job, to the session it
was returned to; the latest reply is the first of the list. -/
def LeasesOffered : Replies → Prop
  | [] => True
  | x :: earlier =>
    (∀ a ∈ leaseOf x, ∃ y ∈ earlier, ∃ b ∈ offerOf y,
      b.1 = a.1 ∧ b.2.offerId = a.2.1 ∧ Names a.2.2 b.2.job) ∧ LeasesOffered earlier

instance decidableLeasesOffered : (replies : Replies) → Decidable (LeasesOffered replies)
  | [] => isTrue trivial
  | x :: earlier =>
    have := decidableLeasesOffered earlier
    inferInstanceAs (Decidable ((∀ a ∈ leaseOf x, ∃ y ∈ earlier, ∃ b ∈ offerOf y, _) ∧ _))

section Laws

variable {τ : Type}

/-- Sessions accept only offers that are pending for them. -/
def OwnOffer (w : World τ) : AppEvent → Prop
  | .call (.accept sessionId offerId) =>
    ∀ pending ∈ w.offers offerId, pending.owner.sessionId = sessionId
  | _ => True

instance decidableOwnOffer (w : World τ) : (e : AppEvent) → Decidable (OwnOffer w e)
  | .call (.accept sessionId offerId) =>
    inferInstanceAs (Decidable (∀ p ∈ w.offers offerId, p.owner.sessionId = sessionId))
  | .call (.openSession _ _) | .call (.createOffer _ _ _) | .call (.renew _ _)
  | .call (.ingest _ _) | .call (.complete _ _ _) | .call (.closeSession _) | .createRun _
  | .restart => isTrue trivial

/-- The run that every returned lease names has been recorded. -/
def RunsRecorded (s : AppState τ) : Prop :=
  ∀ x ∈ s.replies, ∀ a ∈ leaseOf x, ∃ job ∈ s.world.recordedRuns, Names a.2.2 job

/-- No accepted offer is one that was issued again for a lost run. -/
def Unrecovered (w : World τ) : AppEvent → Prop
  | .call (.accept _ offerId) => ∀ pending ∈ w.offers offerId, pending.recoveryOfRunId = none
  | _ => True

instance decidableUnrecovered (w : World τ) : (e : AppEvent) → Decidable (Unrecovered w e)
  | .call (.accept _ offerId) =>
    inferInstanceAs (Decidable (∀ p ∈ w.offers offerId, p.recoveryOfRunId = none))
  | .call (.openSession _ _) | .call (.createOffer _ _ _) | .call (.renew _ _)
  | .call (.ingest _ _) | .call (.complete _ _ _) | .call (.closeSession _) | .createRun _
  | .restart => isTrue trivial

variable [DecidableEq τ] {O : Oracle} {scope : τ} {o : CoreOptions} {s : AppState τ}

omit [DecidableEq τ] in
theorem offerMemory_createRun {w : World τ} (runId : String) :
    (w.createRun runId).offerMemory = w.offerMemory := by
  unfold World.createRun
  split <;> rfl

theorem offersInv_step (e : AppEvent) (hi : OffersInv s.replies s.world.offerMemory) :
    OffersInv (s.step O scope o e).replies (s.step O scope o e).world.offerMemory := by
  cases e with
  | call call => exact hi.step (offerStep_call o call)
  | createRun runId =>
    rw [show (s.step O scope o (.createRun runId)).world.offerMemory = s.world.offerMemory from
      offerMemory_createRun runId]
    exact hi
  | restart =>
    refine ⟨?_, ?_, ?_⟩
    · rintro offerId p ⟨⟩
    · rintro offerId p lease ⟨⟩
    · rintro offerId p ⟨⟩

theorem offersInv_initial : OffersInv [] (World.initial : World τ).offerMemory := by
  refine ⟨?_, ?_, ?_⟩
  · rintro offerId p ⟨⟩
  · rintro offerId p lease ⟨⟩
  · rintro offerId p ⟨⟩

theorem leasesOffered_step {e : AppEvent} (he : OwnOffer s.world e)
    (hi : OffersInv s.replies s.world.offerMemory) (hs : LeasesOffered s.replies) :
    LeasesOffered (s.step O scope o e).replies := by
  cases e with
  | restart => exact hs
  | createRun runId => exact hs
  | call call =>
    refine ⟨fun a ha => ?_, hs⟩
    have hstep : OfferStep s.world.offerMemory
        (call, ((call.body o).run (handler o.platform O scope) s.world).1)
        ((call.body o).run (handler o.platform O scope) s.world).2.offerMemory :=
      offerStep_call o call
    generalize ((call.body o).run (handler o.platform O scope) s.world).1 = r at ha hstep
    generalize ((call.body o).run (handler o.platform O scope) s.world).2.offerMemory = m at hstep
    cases hstep with
    | same hx =>
      rw [hx] at ha
      cases ha
    | offered _ _ _ => cases ha
    | @accepted sessionId offerId pending lease reply hp hl hr =>
      obtain ⟨hid, y, hy, ho⟩ := hi.returned offerId pending hp
      refine ⟨y, hy, _, ho, ?_⟩
      have hla : a.2.2 = lease := hr a ha
      have hids : a.1 = sessionId ∧ a.2.1 = offerId := by
        cases r with
        | error e => cases ha
        | ok r =>
          cases r with
          | lease l =>
            cases ha
            exact ⟨rfl, rfl⟩
          | _ => cases ha
      rw [hids.1, hids.2, hla]
      exact ⟨he pending hp, hid, hi.names hp hl⟩

theorem OfferStep.recordedRuns_subset {m m' : OfferMemory}
    {x : AppCall × Except CoreError AppReply} (hs : OfferStep m x m') :
    m.recordedRuns ⊆ m'.recordedRuns := by
  cases hs with
  | same hx => exact List.Subset.refl _
  | offered _ _ _ => exact List.Subset.refl _
  | accepted _ _ _ => exact List.subset_append_left _ _

theorem runsRecorded_step {e : AppEvent} (he : Unrecovered s.world e)
    (hi : OffersInv s.replies s.world.offerMemory) (hs : RunsRecorded s) :
    RunsRecorded (s.step O scope o e) := by
  cases e with
  | restart => exact hs
  | createRun runId =>
    have hm : (s.world.createRun runId).recordedRuns = s.world.recordedRuns :=
      congrArg OfferMemory.recordedRuns (offerMemory_createRun runId)
    intro x hx a ha
    change ∃ job ∈ (s.world.createRun runId).recordedRuns, _
    rw [hm]
    exact hs x hx a ha
  | call call =>
    have hstep : OfferStep s.world.offerMemory
        (call, ((call.body o).run (handler o.platform O scope) s.world).1)
        ((call.body o).run (handler o.platform O scope) s.world).2.offerMemory :=
      offerStep_call o call
    have hsub := hstep.recordedRuns_subset
    intro x hx a ha
    rcases List.mem_cons.mp hx with rfl | hx
    · generalize ((call.body o).run (handler o.platform O scope) s.world).1 = r at ha hstep
      change ∃ job ∈ ((call.body o).run (handler o.platform O scope)
        s.world).2.offerMemory.recordedRuns, _
      generalize ((call.body o).run (handler o.platform O scope) s.world).2.offerMemory = m at *
      cases hstep with
      | same hx =>
        rw [hx] at ha
        cases ha
      | offered _ _ _ => cases ha
      | @accepted sessionId offerId pending lease reply hp hl hr =>
        have hn := hi.names hp hl
        obtain ⟨record, hrec, hjob⟩ := hi.found offerId pending hp (he pending hp)
        refine ⟨record.offer.job, List.mem_append_right _ ?_, ?_⟩
        · change record.offer.job ∈
            ((s.world.offerMemory.offersByRun lease.runId).map (·.offer.job)).toList
          rw [hn.2, hrec]
          exact List.mem_singleton.mpr rfl
        · rw [hr a ha, hjob]
          exact hn
    · obtain ⟨job, hjob, hn⟩ := hs x hx a ha
      exact ⟨job, hsub hjob, hn⟩

/-- In every history in which sessions accept only offers that are pending for them, every
lease goes to a session that the job was offered to before. -/
theorem leases_offered_to_their_session (O : Oracle) (scope : τ) (o : CoreOptions)
    (events : List AppEvent)
    (h : AppState.Meets O scope o OwnOffer (⟨.initial, []⟩ : AppState τ) events) :
    LeasesOffered (AppState.after O scope o events : AppState τ).replies := by
  refine (Meets.foldl (I := fun s : AppState τ => OffersInv s.replies s.world.offerMemory ∧
    LeasesOffered s.replies) (fun s e he hs => ?_) h ⟨offersInv_initial, trivial⟩).2
  exact ⟨offersInv_step e hs.1, leasesOffered_step he hs.1 hs.2⟩

/-- Every generated text is named after its place among the answers of the oracle. -/
def numberedOracle : Oracle := { sampleOracle with generate := fun n => "id" ++ toString n }

/-- The digests of the tokens that the sample histories generate. -/
def tokenDigests : List (List Char × String) :=
  [("id1".toList, "f3436f50b2f7f1613ad142dbce1d24801d9daaabc45ecb2db909251a214c9840"),
    ("id7".toList, "30fd7a62429a00d89d11a2a0bbffc1ac72312d67ee445fc62f881324b6c1fc1e"),
    ("id9".toList, "fa71c04995114b770af4c2d5d319025d03155b1a772a9f45e60f361e35e8983e"),
    ("id14".toList, "df3ed0f4e11af489b0430245250392dff4f7ffebf9d6b065919036f34157a0d5"),
    ("id15".toList, "b24c92e66f3850c7ae42775cae57e698a91ba270db75ba8716bdce9ff1bf446e"),
    ("id22".toList, "ce5de16802750aa3d245fe1135063471992780c360b0b7c33687864d64fe86f3"),
    ("id28".toList, "60fa100b4e8a51c78bd6c2c2cd3ba7a312257d19e2204a295e1a1a134a205d5c")]

def sampleUrls : List (String × Url) :=
  [("https://app.test", ⟨"https:", "", "", "https://app.test"⟩)]

def sampleCore : CoreOptions where
  platform := .table tokenDigests sampleUrls
  leaseDurationMs := 30000
  resumeTtlMs := 60000
  welcome := ⟨"1.0.0", 1000, 30000, 100, 1000, 1, 1000⟩

/-- A web Runner asks for a new session. -/
def sampleHello (runnerId : String) : RunnerHello where
  runnerId := runnerId
  runnerVersion := "1.0.0"
  supportedProtocolMajors := [1]
  capabilities := ⟨"linux", "x64", ["web"], ["observation-graph/v1", "web/v1"], ["click"], true,
    false, 1000⟩
  resumeToken := none

def openSample (runnerId : String) : AppEvent :=
  .call (.openSession (sampleHello runnerId) ⟨runnerId, "fingerprint", .local⟩)

/-- A job is offered to the first of two sessions, and the given session accepts it. -/
def offerAndAccept (sessionId : String) : List AppEvent :=
  [openSample "runner", openSample "other",
    .call (.createOffer "id0" (sampleJob "job" "run") []), .call (.accept sessionId "id13")]

theorem leases_offered_to_their_session_accepted :
    (AppState.Meets numberedOracle () sampleCore OwnOffer ⟨.initial, []⟩
      (offerAndAccept "id0")) ∧
    ((AppState.after numberedOracle () sampleCore (offerAndAccept "id0") :
      AppState Unit).replies.any fun x => (leaseOf x).isSome) ∧
    LeasesOffered (AppState.after numberedOracle () sampleCore (offerAndAccept "id0") :
      AppState Unit).replies := by
  have h : AppState.Meets numberedOracle () sampleCore OwnOffer ⟨.initial, []⟩
      (offerAndAccept "id0") := by decide
  exact ⟨h, by decide, leases_offered_to_their_session _ () _ _ h⟩

/-- The other session gets the lease of a job that was never offered to it. -/
theorem lease_for_other_session :
    ¬ LeasesOffered (AppState.after numberedOracle () sampleCore (offerAndAccept "id6") :
      AppState Unit).replies := by
  decide

/-- In every history in which no offer that was issued again for a lost run is accepted,
the run of every lease has been recorded. -/
theorem leased_runs_recorded (O : Oracle) (scope : τ) (o : CoreOptions)
    (events : List AppEvent)
    (h : AppState.Meets O scope o Unrecovered (⟨.initial, []⟩ : AppState τ) events) :
    RunsRecorded (AppState.after O scope o events : AppState τ) := by
  refine (Meets.foldl (I := fun s : AppState τ => OffersInv s.replies s.world.offerMemory ∧
    RunsRecorded s) (fun s e he hs => ?_) h ⟨offersInv_initial, fun x hx => nomatch hx⟩).2
  exact ⟨offersInv_step e hs.1, runsRecorded_step he hs.1 hs.2⟩

theorem leased_runs_recorded_accepted :
    (AppState.Meets numberedOracle () sampleCore Unrecovered ⟨.initial, []⟩
      (offerAndAccept "id0")) ∧
    ((AppState.after numberedOracle () sampleCore (offerAndAccept "id0") :
      AppState Unit).replies.any fun x => (leaseOf x).isSome) ∧
    RunsRecorded (AppState.after numberedOracle () sampleCore (offerAndAccept "id0") :
      AppState Unit) := by
  have h : AppState.Meets numberedOracle () sampleCore Unrecovered ⟨.initial, []⟩
      (offerAndAccept "id0") := by decide
  exact ⟨h, by decide, leased_runs_recorded _ () _ _ h⟩

/-- A run is leased, Core starts again, the lease expires, and the same job is offered and
accepted under a recovered run. -/
def acceptRecovered : List AppEvent :=
  [openSample "runner", .call (.createOffer "id0" (sampleJob "job" "run") []),
    .call (.accept "id0" "id7"), .restart, openSample "runner",
    .call (.createOffer "id13" (sampleJob "job" "run") []), .call (.accept "id13" "id26")]

/-- The recovered run is leased and was never recorded. -/
theorem recovered_run_not_recorded :
    ¬ RunsRecorded (AppState.after numberedOracle () sampleCore acceptRecovered :
      AppState Unit) := by
  unfold RunsRecorded
  decide

end Laws

end Qualigence.Core
