import Qualigence.Core.Offers

/-! # Frames of the gRPC server

After its handshake a connection handles the frames of its Runner one after another. It
keeps the leases it has handed out, by run. A completion names a job and a run as the
Runner likes; the lease it is checked against is the one of that run, and nothing compares
the job it names with the job of the lease before the completion is stored.
-/

namespace Qualigence.Grpc

open Foundation Protocol Lease Core

structure Connection where
  sessionId : String
  lastLeases : String → Option ExecutionJobLease

/-- What a Runner can send, as the mappers decode it. Artifact frames, which touch neither
leases nor completions, are left out. -/
inductive RunnerFrame where
  | acceptOffer (offerId : String)
  | eventBatch (batch : ExecutionEventBatch)
  | renewLease (lease : ExecutionJobLease)
  | completeExecution (completion : ExecutionCompletion)

namespace Connection

def setLease (c : Connection) (lease : ExecutionJobLease) : Connection :=
  { c with lastLeases := Function.update c.lastLeases lease.runId (some lease) }

/-- The last lease of the run on this connection, or one without a token. -/
def leaseFor (c : Connection) (completion : ExecutionCompletion) : ExecutionJobLease :=
  (c.lastLeases completion.runId).getD
    { jobId := completion.jobId, runId := completion.runId, leaseToken := "", leaseEpoch := 0,
      expiresAt := toISOString 0 }

/-- Handle a frame; the result is the connection afterwards. -/
def handleFrame (o : CoreOptions) (c : Connection) : RunnerFrame → Service Connection
  | .acceptOffer offerId => c.setLease <$>
    CoreRunnerProtocolApplication.accept o c.sessionId offerId
  | .eventBatch batch => (fun _ => c) <$>
    CoreRunnerProtocolApplication.ingest o c.sessionId batch
  | .renewLease lease => c.setLease <$>
    CoreRunnerProtocolApplication.renew o c.sessionId lease
  | .completeExecution completion => (fun _ => c) <$>
    CoreRunnerProtocolApplication.complete o c.sessionId (c.leaseFor completion) completion

end Connection

/-! ## The server -/

structure ServerState (τ : Type) where
  world : World τ
  connections : ℕ → Option Connection

def ServerState.initial {τ : Type} : ServerState τ := ⟨.initial, fun _ => none⟩

inductive ServerEvent where
  | hello (c : ℕ) (hello : RunnerHello) (identity : AuthenticatedRunnerContext)
  | frame (c : ℕ) (frame : RunnerFrame)
  | dispose (c : ℕ)
  | createOffer (sessionId : String) (job : AcceptedExecutionJob) (requirements : List String)
  | closeSession (sessionId : String)
  | restart

section Server

variable {τ : Type} [DecidableEq τ] (O : Oracle) (scope : τ) (o : CoreOptions)

/-- Replace the connection `c`. -/
def ServerState.setConnection (s : ServerState τ) (c : ℕ) (connection : Option Connection) :
    ServerState τ :=
  { s with connections := Function.update s.connections c connection }

/-- Run a service to its end. -/
def ServerState.run {α : Type} (s : ServerState τ) (p : Service α) :
    Except CoreError α × ServerState τ :=
  let r := p.run (handler o.platform O scope) s.world
  (r.1, { s with world := r.2 })

/-- A frame whose handling fails ends its connection. -/
def ServerState.step (s : ServerState τ) : ServerEvent → ServerState τ
  | .hello c hello identity =>
    match s.run O scope o (CoreRunnerProtocolApplication.openSession o hello identity) with
    | (.ok welcome, t) => t.setConnection c (some ⟨welcome.sessionId, fun _ => none⟩)
    | (.error _, t) => t
  | .frame c frame =>
    match s.connections c with
    | none => s
    | some connection =>
      match s.run O scope o (connection.handleFrame o frame) with
      | (.ok connection, t) => t.setConnection c (some connection)
      | (.error _, t) => t.setConnection c none
  | .dispose c => s.setConnection c none
  | .createOffer sessionId job requirements =>
    (s.run O scope o
      (CoreRunnerProtocolApplication.createOffer o sessionId job requirements)).2
  | .closeSession sessionId =>
    (s.run O scope o (CoreRunnerProtocolApplication.closeSession sessionId)).2
  | .restart => ⟨s.world.restart, fun _ => none⟩

/-- The server after a sequence of events from empty stores. -/
def ServerState.after (events : List ServerEvent) : ServerState τ :=
  events.foldl (ServerState.step O scope o) .initial

end Server

/-! ## Names of stored jobs and completions -/

/-- The stored job and the stored completion of a run carry the names they are stored
under. -/
structure NamedRun {τ : Type} (k : τ × String) (v : RunView τ) : Prop where
  linked : v.Linked
  job : ∀ row, v.lease = some row → ∃ job : AcceptedExecutionJob,
    row.jobJson = job.toValue ∧ job.jobId = row.jobId ∧ job.runId = k.2
  completion : ∀ c, v.completion = some c →
    c.completionJson.jobId = c.jobId ∧ c.completionJson.runId = k.2

/-- A completion is stored only under its own names. -/
def StoresNamed : LeaseCall → Prop
  | .completeLease input =>
    input.completion.jobId = input.jobId ∧ input.completion.runId = input.runId
  | _ => True

section Named

variable {τ : Type} {scope : τ} {k : τ × String} {call : LeaseCall} {v v' : RunView τ}

theorem NamedRun.step (hv : NamedRun k v) (hc : StoresNamed call)
    (hs : RunStep scope k call v v') : NamedRun k v' := by
  refine ⟨hs.linked hv.linked, ?_, ?_⟩
  · cases hs with
    | same => exact hv.job
    | @granted input c hk =>
      rintro row ⟨⟩
      exact ⟨input.job, rfl, rfl, by rw [hk]⟩
    | @renewed input row c hk ho =>
      rintro _ ⟨⟩
      exact hv.job row rfl
    | @completed input row hk ho hj =>
      rintro _ ⟨⟩
      exact hv.job row rfl
    | @lost runId lostAt row c hk ho =>
      rintro _ ⟨⟩
      exact hv.job row rfl
  · cases hs with
    | same => exact hv.completion
    | granted hk => exact hv.completion
    | renewed hk ho => exact hv.completion
    | completed hk ho hj =>
      rintro _ ⟨⟩
      rw [hk]
      exact hc
    | lost hk ho => exact hv.completion

end Named

/-! ## Completing a run -/

section Completing

variable {τ : Type} [DecidableEq τ] {P : Platform} {O : Oracle} {scope : τ} {w w' : World τ}
  {runId jobId : String}

/-- Every run of the store is named. -/
def NamedStore (w : World τ) : Prop := ∀ k, NamedRun k (w.db.run k)

/-- No lease appears, and every lease keeps its job. -/
def SameJobs (w w' : World τ) : Prop :=
  ∀ k, (w'.db.leases.get k).map (·.jobId) = (w.db.leases.get k).map (·.jobId)

/-- Nothing is granted, and completions are stored under their own names. -/
def CompletesNamed (_ : World τ) : CoreOp → Prop
  | .grantLease _ => False
  | .completeLease input => StoresNamed (.completeLease input)
  | _ => True

/-- The lease of the run, if there is one, is for the job. -/
def LeasedFor (scope : τ) (runId jobId : String) (w : World τ) : Prop :=
  ∀ row ∈ w.db.leases.get (scope, runId), row.jobId = jobId

theorem namedStore_handler {op : CoreOp} (h : ∀ call, op.leaseCall = some call → StoresNamed call)
    (hw : NamedStore w) : NamedStore (handler P O scope op w).2 := by
  intro k
  cases hc : op.leaseCall with
  | none =>
    rw [run_handler hc]
    exact hw k
  | some call => exact (hw k).step (h call hc) (runStep_handler hc)

theorem sameJobs_handler {op : CoreOp} (h : CompletesNamed w op) :
    SameJobs w (handler P O scope op w).2 := by
  intro k
  change ((handler P O scope op w).2.db.run k).lease.map _ = (w.db.run k).lease.map _
  cases hc : op.leaseCall with
  | none => rw [run_handler hc]
  | some call =>
    have hs : RunStep scope k call (w.db.run k) ((handler P O scope op w).2.db.run k) :=
      runStep_handler hc
    generalize w.db.run k = v at hs ⊢
    generalize (handler P O scope op w).2.db.run k = v' at hs ⊢
    cases hs with
    | same => rfl
    | @granted input c hk =>
      cases op with
      | grantLease input' => cases h
      | _ => cases hc
    | renewed hk ho => rfl
    | completed hk ho hj => rfl
    | lost hk ho => rfl

theorem LeasedFor.later (h : LeasedFor scope runId jobId w) (hl : SameJobs w w') :
    LeasedFor scope runId jobId w' := by
  intro row hrow
  have he := hl (scope, runId)
  rw [Option.mem_def.mp hrow, Option.map_some] at he
  obtain ⟨row', hrow', hj⟩ := Option.map_eq_some_iff.mp he.symm
  rw [← hj]
  exact h row' hrow'

variable (P O scope) in
def completionDiscipline : Program.Discipline (handler P O scope) where
  inv := NamedStore
  later := SameJobs
  permitted := CompletesNamed
  later_refl _ _ := rfl
  later_trans _ _ _ h h' k := (h' k).trans (h k)
  permitted_later _ _ op _ hp := by
    cases op <;> exact hp
  keeps op s hp hs := by
    refine ⟨namedStore_handler (fun call hc => ?_) hs, sameJobs_handler hp⟩
    cases op with
    | completeLease input =>
      cases hc
      exact hp
    | grantLease input => cases hp
    | renewLease input =>
      cases hc
      trivial
    | markLeaseLost runId lostAt =>
      cases hc
      trivial
    | _ => cases hc

/-- The lease of a run is read with the job that it is stored for. -/
theorem job_of_read {record : PersistedExecutionLease} (hw : NamedStore w)
    (hl : LeasedFor scope runId jobId w)
    (h : (handler P O scope (.lease runId) w).1 = .ok (some record)) :
    record.job.jobId = jobId ∧ record.job.runId = runId := by
  obtain ⟨row, hrow, hlease⟩ := lease_eq_ok (onDb_eq_ok h).1
  obtain ⟨job, hjson, hjob, hrun⟩ := (hw (scope, runId)).job row hrow
  obtain ⟨hparse, -⟩ := toLease_eq_ok hlease
  unfold parseJob at hparse
  rw [hjson] at hparse
  split at hparse
  · next job' hp =>
    cases hparse
    obtain ⟨h1, h2⟩ := identity_of_parse_toValue hp
    rw [h1, h2, hjob, hrun]
    exact ⟨hl row hrow, rfl⟩
  · cases hparse

variable (o : RunOwnershipOptions) {completion : ExecutionCompletion}

/-- Reading the clock or the memory keeps what is known about the lease. -/
theorem assured_reading {α : Type} {p : Service α}
    (hp : p.Uses (Writes reading)) (hw : LeasedFor scope runId jobId w) :
    p.Assured (completionDiscipline P O scope) (fun _ _ => True)
      (fun t _ => LeasedFor scope runId jobId t) w := by
  refine Program.assured_of_uses (fun _ op hop => ?_) (fun s t h hs => hs.later h) hp hw
  cases op <;> first | trivial | cases hop

theorem assured_lease (hw : LeasedFor scope runId jobId w) :
    (Store.lease runId).Assured (completionDiscipline P O scope) (fun _ _ => True)
      (fun t r => LeasedFor scope runId jobId t ∧ ∀ record, r = some record →
        record.job.jobId = jobId ∧ record.job.runId = runId) w := by
  refine assured_perform (.lease runId) trivial fun t r hl ht _ hr => ?_
  refine ⟨(hw.later hl).later (sameJobs_handler trivial), ?_⟩
  rintro record rfl
  exact job_of_read ht (hw.later hl) hr

theorem assured_completeAgainst {record : PersistedExecutionLease} {checkedAt : Timestamp}
    (h : record.job.jobId = completion.jobId ∧ record.job.runId = completion.runId)
    (hw : NamedStore w) :
    (RunOwnershipService.completeAgainst o record completion checkedAt).Assured
      (completionDiscipline P O scope) (fun _ _ => True) (fun _ _ => True) w := by
  refine Program.assured_bind hw (M := fun _ _ => True)
    (assured_perform (.completeLease _) ⟨h.1.symm, h.2.symm⟩ fun _ _ _ _ _ _ => trivial)
    fun t outcome ht _ => ?_
  cases outcome with
  | completionConflict stored =>
    exact Program.assured_bind ht (M := fun _ _ => True)
      (assured_perform (.emit _) trivial fun _ _ _ _ _ _ => trivial) fun _ _ _ _ => trivial
  | rejected => trivial
  | completed => trivial
  | duplicate => trivial

theorem assured_requireMatchingLease {lease : ExecutionJobLease}
    (hl : LeasedFor scope lease.runId jobId w) (hw : NamedStore w) :
    (RunOwnershipService.requireMatchingLease o lease).Assured (completionDiscipline P O scope)
      (fun _ _ => True)
      (fun t record => (record.job.jobId = jobId ∧ record.job.runId = lease.runId) ∧
        LeasedFor scope lease.runId jobId t) w := by
  have hread : (orPolicyMissing (Store.lease lease.runId)).Assured
      (completionDiscipline P O scope) (fun _ _ => True)
      (fun t r => LeasedFor scope lease.runId jobId t ∧ ∀ record, r = some record →
        record.job.jobId = jobId ∧ record.job.runId = lease.runId) w := by
    refine Program.assured_tryCatch (assured_lease hl) fun e t => ?_
    split <;> trivial
  refine Program.assured_bind hw hread fun t stored ht hs => ?_
  cases stored with
  | none => trivial
  | some record =>
    have hrec := hs.2 record rfl
    dsimp only
    split
    · trivial
    split
    · exact ⟨hrec, hs.1⟩
    refine Program.assured_bind ht (assured_reading (uses_nowIso rfl) hs.1) fun t now ht hl => ?_
    split
    · refine Program.assured_bind ht (assured_reading (uses_nowIso rfl) hl)
        fun t now ht hl => ?_
      exact Program.assured_bind ht (M := fun _ _ => True)
        (assured_perform (.markLeaseLost _ _) trivial fun _ _ _ _ _ _ => trivial)
          fun _ _ _ _ => trivial
    · exact ⟨hrec, hl⟩

theorem assured_complete {lease : ExecutionJobLease} (hr : lease.runId = completion.runId)
    (hl : LeasedFor scope completion.runId completion.jobId w) (hw : NamedStore w) :
    (RunOwnershipService.complete o lease completion).Assured (completionDiscipline P O scope)
      (fun _ _ => True) (fun _ _ => True) w := by
  rw [← hr] at hl
  refine Program.assured_bind hw (assured_requireMatchingLease o hl hw) fun t record ht hrec => ?_
  rw [hr] at hrec
  exact Program.assured_bind ht (assured_reading (uses_nowIso rfl) hrec.2) fun t now ht _ =>
    assured_completeAgainst o hrec.1 ht

theorem assured_completeStored (hr : runId = completion.runId)
    (hl : LeasedFor scope completion.runId completion.jobId w) (hw : NamedStore w) :
    (RunOwnershipService.completeStored o runId completion).Assured
      (completionDiscipline P O scope) (fun _ _ => True) (fun _ _ => True) w := by
  subst hr
  refine Program.assured_bind hw (assured_lease hl) fun t stored ht hs => ?_
  refine Program.assured_bind ht (assured_reading (uses_nowIso rfl) hs.1) fun t now ht hl => ?_
  cases stored with
  | none => trivial
  | some record =>
    have hrec := hs.2 record rfl
    dsimp only
    split
    · exact assured_completeAgainst o hrec ht
    split
    · trivial
    split
    · refine Program.assured_bind ht
        (M := fun t _ => LeasedFor scope completion.runId completion.jobId t)
        (assured_perform (.markLeaseLost _ _) trivial fun t' r hl' _ _ _ =>
          (hl.later hl').later (sameJobs_handler trivial)) fun t marked ht hl => ?_
      split
      · trivial
      refine Program.assured_bind ht (assured_lease hl) fun t latest ht hs => ?_
      cases latest with
      | none => trivial
      | some latest =>
        dsimp only
        split
        · exact assured_completeAgainst o (hs.2 latest rfl) ht
        · trivial
    · exact assured_completeAgainst o hrec ht

/-- A completion that names the job of the lease of its run keeps the store named. -/
theorem namedStore_complete {o : CoreOptions} {sessionId : String} {lease : ExecutionJobLease}
    (hr : lease.runId = completion.runId)
    (hl : LeasedFor scope completion.runId completion.jobId w) (hw : NamedStore w) :
    NamedStore (Program.run (handler P O scope)
      (CoreRunnerProtocolApplication.complete o sessionId lease completion) w).2 := by
  have hsink : ∀ t disposition, NamedStore t →
      Program.Assured (completionDiscipline P O scope) (fun _ _ => True) (fun _ _ => True)
        (CoreRunnerProtocolApplication.invokeCompletionSink sessionId completion disposition)
        t := by
    intro t disposition _
    refine Program.assured_of_uses (fun _ op hop => ?_) (fun _ _ _ h => h)
      (CoreRunnerProtocolApplication.uses_invokeCompletionSink
        (show reading .nothing from rfl) _ _ _) trivial
    cases op <;> first | trivial | cases hop
  suffices ha : Program.Assured (completionDiscipline P O scope) (fun _ _ => True)
      (fun _ _ => True) (CoreRunnerProtocolApplication.complete o sessionId lease completion) w
    from ha.run hw
  refine Program.assured_bind hw (assured_reading
    (CoreRunnerProtocolApplication.uses_requireOwner rfl _ _) hl) fun t _ ht hl => ?_
  dsimp only
  split
  · exact Program.assured_bind ht (assured_completeStored _ hr hl ht) fun t d ht _ => hsink t d ht
  · exact Program.assured_bind ht (assured_complete _ hr hl ht) fun t d ht _ => hsink t d ht

/-- A service that stores no completion keeps the store named. -/
theorem namedStore_of_uses {α : Type} {parts : Part → Bool} (hc : parts .completions = false)
    {p : Service α} (hp : p.Uses (Writes parts)) (hw : NamedStore w) :
    NamedStore (p.run (handler P O scope) w).2 := by
  refine Program.run_of_uses (R := fun s t : World τ => NamedStore s → NamedStore t)
    (fun _ h => h) (fun _ _ _ h h' hs => h' (h hs)) (fun op s hop hs => ?_) hp w hw
  refine namedStore_handler (fun call hcall => ?_) hs
  cases op with
  | completeLease input =>
    change parts .completions = true at hop
    rw [hc] at hop
    cases hop
  | grantLease input =>
    cases hcall
    trivial
  | renewLease input =>
    cases hcall
    trivial
  | markLeaseLost runId lostAt =>
    cases hcall
    trivial
  | _ => cases hcall

end Completing

/-! ## Every history of the server -/

/-- A connection keeps leases under the runs they name. -/
def Connection.Keyed (c : Connection) : Prop :=
  ∀ runId lease, c.lastLeases runId = some lease → lease.runId = runId

theorem Connection.Keyed.setLease {c : Connection} (h : c.Keyed) (lease : ExecutionJobLease) :
    (c.setLease lease).Keyed := by
  intro runId l hl
  change Function.update c.lastLeases lease.runId (some lease) runId = some l at hl
  rcases eq_or_ne runId lease.runId with rfl | hne
  · rw [Function.update_self] at hl
    cases hl
    rfl
  · rw [Function.update_of_ne hne] at hl
    exact h runId l hl

theorem Connection.Keyed.leaseFor {c : Connection} (h : c.Keyed)
    (completion : ExecutionCompletion) :
    (c.leaseFor completion).runId = completion.runId := by
  unfold Connection.leaseFor
  cases hl : c.lastLeases completion.runId with
  | none => rfl
  | some lease => exact h _ _ hl

section Histories

variable {τ : Type} [DecidableEq τ] {O : Oracle} {scope : τ} {o : CoreOptions}
  {s : ServerState τ}

/-- The store is named and every connection keeps its leases by run. -/
structure ServerInv (s : ServerState τ) : Prop where
  named : NamedStore s.world
  keyed : ∀ c connection, s.connections c = some connection → connection.Keyed

/-- A completion on a connection names the job of the lease that is stored for its run. -/
def NamesLeasedJob (scope : τ) (s : ServerState τ) : ServerEvent → Prop
  | .frame c (.completeExecution completion) => (s.connections c).isSome →
    LeasedFor scope completion.runId completion.jobId s.world
  | _ => True

instance decidableNamesLeasedJob (scope : τ) (s : ServerState τ) :
    (e : ServerEvent) → Decidable (NamesLeasedJob scope s e)
  | .frame c (.completeExecution completion) =>
    inferInstanceAs (Decidable ((s.connections c).isSome →
      ∀ row ∈ s.world.db.leases.get (scope, completion.runId), row.jobId = completion.jobId))
  | .frame _ (.acceptOffer _) | .frame _ (.eventBatch _) | .frame _ (.renewLease _)
  | .hello _ _ _ | .dispose _ | .createOffer _ _ _ | .closeSession _ | .restart => isTrue trivial

/-- Every stored completion carries the job and the run of the lease it completes, and
reading it back finds no mismatch. -/
structure CompletionsNamed (P : Platform) (scope : τ) (db : RunnerControlDb τ) : Prop where
  named : ∀ runId row, db.completions.get (scope, runId) = some row →
    ∃ lease, db.leases.get (scope, runId) = some lease ∧
      row.completionJson.jobId = lease.jobId ∧ row.completionJson.runId = lease.runId
  readable : ∀ runId,
    RunnerControlStore.completionRecord P scope runId db ≠ .error .completionIdentityMismatch

theorem ServerInv.setConnection {c : ℕ} {connection : Option Connection} (hs : ServerInv s)
    (hc : ∀ x ∈ connection, x.Keyed) : ServerInv (s.setConnection c connection) := by
  refine ⟨hs.named, fun d x hx => ?_⟩
  change Function.update s.connections c connection d = some x at hx
  rcases eq_or_ne d c with rfl | hne
  · rw [Function.update_self] at hx
    exact hc x hx
  · rw [Function.update_of_ne hne] at hx
    exact hs.keyed d x hx

theorem ServerInv.run {α : Type} {p : Service α} (hs : ServerInv s)
    (hp : NamedStore (p.run (handler o.platform O scope) s.world).2) :
    ServerInv (s.run O scope o p).2 :=
  ⟨hp, hs.keyed⟩

/-- Whatever frame a connection handles, it keeps its leases by run. -/
theorem keyed_handleFrame {c c' : Connection} (hc : c.Keyed) (frame : RunnerFrame)
    (h : (s.run O scope o (c.handleFrame o frame)).1 = .ok c') : c'.Keyed := by
  have hkeep : ∀ {α : Type} {f : α → Connection} {p : Service α}, (∀ a, (f a).Keyed) →
      (s.run O scope o (f <$> p)).1 = .ok c' → c'.Keyed := by
    intro α f p hf he
    change (Program.run _ (f <$> p) s.world).1 = .ok c' at he
    rw [Program.run_map] at he
    cases hr : (Program.run (handler o.platform O scope) p s.world).1 with
    | error e =>
      rw [hr] at he
      cases he
    | ok a =>
      rw [hr] at he
      cases he
      exact hf a
  cases frame with
  | acceptOffer offerId => exact hkeep hc.setLease h
  | eventBatch batch => exact hkeep (fun _ => hc) h
  | renewLease lease => exact hkeep hc.setLease h
  | completeExecution completion => exact hkeep (fun _ => hc) h

theorem namedStore_handleFrame {c : ℕ} {connection : Connection} {frame : RunnerFrame}
    (hs : ServerInv s) (hc : s.connections c = some connection)
    (he : NamesLeasedJob scope s (.frame c frame)) :
    NamedStore (Program.run (handler o.platform O scope) (connection.handleFrame o frame)
      s.world).2 := by
  cases frame with
  | acceptOffer offerId =>
    exact namedStore_of_uses rfl (Program.uses_bind
      (CoreRunnerProtocolApplication.uses_accept o _ _) fun _ => trivial) hs.named
  | eventBatch batch =>
    exact namedStore_of_uses rfl (Program.uses_bind
      (RunnerSessionService.uses_ingest o _ _) fun _ => trivial) hs.named
  | renewLease lease =>
    exact namedStore_of_uses rfl (Program.uses_bind
      (CoreRunnerProtocolApplication.uses_renew o _ _) fun _ => trivial) hs.named
  | completeExecution completion =>
    unfold Connection.handleFrame
    rw [Program.run_map]
    refine namedStore_complete ((hs.keyed c connection hc).leaseFor completion) ?_ hs.named
    exact he (by rw [hc]; rfl)

theorem serverInv_step {e : ServerEvent} (he : NamesLeasedJob scope s e) (hs : ServerInv s) :
    ServerInv (s.step O scope o e) := by
  cases e with
  | hello c hello identity =>
    have hrun : ServerInv (s.run O scope o
        (CoreRunnerProtocolApplication.openSession o hello identity)).2 :=
      hs.run (namedStore_of_uses rfl (RunnerSessionService.uses_register o hello identity)
        hs.named)
    unfold ServerState.step
    dsimp only
    generalize s.run O scope o (CoreRunnerProtocolApplication.openSession o hello identity) = r
      at hrun ⊢
    rcases r with ⟨e | welcome, t⟩
    · exact hrun
    · refine hrun.setConnection ?_
      rintro _ ⟨⟩ runId lease ⟨⟩
  | frame c frame =>
    unfold ServerState.step
    cases hc : s.connections c with
    | none =>
      dsimp only
      rw [hc]
      exact hs
    | some connection =>
      have hrun : ServerInv (s.run O scope o (connection.handleFrame o frame)).2 :=
        hs.run (namedStore_handleFrame hs hc he)
      have hkeyed : ∀ c', (s.run O scope o (connection.handleFrame o frame)).1 = .ok c' →
          c'.Keyed := fun c' => keyed_handleFrame (hs.keyed c connection hc) frame
      dsimp only
      rw [hc]
      dsimp only
      generalize s.run O scope o (connection.handleFrame o frame) = r at hrun hkeyed ⊢
      rcases r with ⟨e | connection', t⟩
      · exact hrun.setConnection (by rintro _ ⟨⟩)
      · refine hrun.setConnection ?_
        rintro _ ⟨⟩
        exact hkeyed connection' rfl
  | dispose c => exact hs.setConnection (by rintro _ ⟨⟩)
  | createOffer sessionId job requirements =>
    exact hs.run (namedStore_of_uses rfl
      (CoreRunnerProtocolApplication.uses_createOffer o _ _ _) hs.named)
  | closeSession sessionId =>
    exact hs.run (namedStore_of_uses rfl
      (RunnerSessionService.uses_closeSession sessionId) hs.named)
  | restart =>
    refine ⟨hs.named, ?_⟩
    rintro c connection ⟨⟩

theorem CompletionsNamed.of_namedStore {P : Platform} {w : World τ} (hw : NamedStore w) :
    CompletionsNamed P scope w.db := by
  have hnamed : ∀ runId row, w.db.completions.get (scope, runId) = some row →
      ∃ lease, w.db.leases.get (scope, runId) = some lease ∧ row.jobId = lease.jobId ∧
        lease.runId = runId ∧ row.completionJson.jobId = row.jobId ∧
        row.completionJson.runId = runId := by
    intro runId row hrow
    obtain ⟨lease, hlease, -, hj⟩ := (hw (scope, runId)).linked row hrow
    obtain ⟨hcj, hcr⟩ := (hw (scope, runId)).completion row hrow
    have hk : lease.key = (scope, runId) := Table.key_of_get hlease
    exact ⟨lease, hlease, hj, congrArg Prod.snd hk, hcj, hcr⟩
  constructor
  · intro runId row hrow
    obtain ⟨lease, hlease, hj, hr, hcj, hcr⟩ := hnamed runId row hrow
    exact ⟨lease, hlease, hcj.trans hj, hcr.trans hr.symm⟩
  · intro runId
    unfold RunnerControlStore.completionRecord
    split
    · next row lease hrow hlease =>
      obtain ⟨lease', hlease', hj, hr, hcj, hcr⟩ := hnamed runId row hrow
      have hk : row.key = (scope, runId) := Table.key_of_get hrow
      obtain ⟨job, hjson, hjob, hrun⟩ := (hw (scope, runId)).job lease hlease
      cases hlease.symm.trans hlease'
      intro hbad
      rcases hp : parseJob P lease.jobJson with e | job'
      · rw [hp] at hbad
        cases hbad
        unfold parseJob at hp
        split at hp <;> cases hp
      · have hid : job'.jobId = job.jobId ∧ job'.runId = job.runId := by
          unfold parseJob at hp
          rw [hjson] at hp
          split at hp
          · next h =>
            cases hp
            exact identity_of_parse_toValue h
          · cases hp
        rw [hp] at hbad
        change (if _ then _ else _) = _ at hbad
        have hrr : row.runId = runId := congrArg Prod.snd hk
        simp [hid, hjob, hrun, hj, hcj, hcr, hrr] at hbad
    · rintro ⟨⟩

/-- In every history in which completions name the job of the lease of their run, every
stored completion carries the names of its lease and is read back without a mismatch. -/
theorem completions_carry_lease_identity (O : Oracle) (scope : τ) (o : CoreOptions)
    (events : List ServerEvent)
    (h : Meets (ServerState.step O scope o) (NamesLeasedJob scope) .initial events) :
    CompletionsNamed o.platform scope
      (ServerState.after O scope o events : ServerState τ).world.db := by
  have hinit : ServerInv (.initial : ServerState τ) := by
    refine ⟨fun k => ⟨?_, ?_, ?_⟩, ?_⟩
    · rintro c ⟨⟩
    · rintro row ⟨⟩
    · rintro c ⟨⟩
    · rintro c connection ⟨⟩
  have hinv : ServerInv (ServerState.after O scope o events : ServerState τ) :=
    h.foldl (I := ServerInv) (fun s e he hs => serverInv_step he hs) hinit
  exact .of_namedStore hinv.named

/-- A clock that is slow enough for a lease to live through the sample. -/
def slowOracle : Oracle := { numberedOracle with now := fun n => 1000 * n }

/-- A run is offered and accepted on a connection, and completed for the given job. -/
def completeFor (jobId : String) : List ServerEvent :=
  [.hello 0 (sampleHello "runner") ⟨"runner", "fingerprint", .local⟩,
    .createOffer "id0" (sampleJob "job" "run") [], .frame 0 (.acceptOffer "id7"),
    .frame 0 (.completeExecution ⟨jobId, "run", .passed⟩)]

theorem completions_carry_lease_identity_passed :
    (Meets (ServerState.step slowOracle () sampleCore) (NamesLeasedJob ()) .initial
      (completeFor "job")) ∧
    (((ServerState.after slowOracle () sampleCore (completeFor "job") :
      ServerState Unit).world.db.completions.get ((), "run")).isSome) ∧
    CompletionsNamed sampleCore.platform ()
      (ServerState.after slowOracle () sampleCore (completeFor "job") :
        ServerState Unit).world.db := by
  have h : Meets (ServerState.step slowOracle () sampleCore) (NamesLeasedJob ()) .initial
      (completeFor "job") := by decide
  exact ⟨h, by decide, completions_carry_lease_identity _ () _ _ h⟩

/-- The same completion for another job is stored, and reading it back fails. -/
theorem completion_of_other_job_stored :
    ¬ CompletionsNamed sampleCore.platform ()
      (ServerState.after slowOracle () sampleCore (completeFor "other") :
        ServerState Unit).world.db := by
  intro h
  have hbad : (match RunnerControlStore.completionRecord sampleCore.platform () "run"
      (ServerState.after slowOracle () sampleCore (completeFor "other") :
        ServerState Unit).world.db with
    | .error e => decide (e = .completionIdentityMismatch)
    | .ok _ => false) = true := by decide
  split at hbad
  · next e he =>
    rw [of_decide_eq_true hbad] at he
    exact h.readable "run" he
  · cases hbad

end Histories

end Qualigence.Grpc
