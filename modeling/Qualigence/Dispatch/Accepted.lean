import Qualigence.Dispatch.Outbox

/-! # The programs keep the discipline

A cycle of the loop accepts a dispatch after it has read the lease of its run or was given a
lease by the offer, both of them for the job of the dispatch. With that every history of the
server keeps the invariant.
-/

namespace Qualigence.Dispatch

open Foundation Protocol Mission
open Core (Granted GrantInv Later Service CoreOptions grantDiscipline)

variable {τ : Type} [DecidableEq τ] {P : PlanningPlatform} {O : ServerOracle} {scope : τ}
  {o : CoreOptions} {s t : DispatchState τ} {α β : Type}

variable (P O scope o) in
/-- The program keeps the discipline, whatever others do between its operations. -/
abbrev Assured (post : DispatchState τ → α → Prop) (p : Dispatching α) (s : DispatchState τ) :
    Prop :=
  Program.Assured (dispatchDiscipline P O scope o) (fun _ _ => True) post p s

variable (P O scope o) in
abbrev Kept (p : Dispatching α) (s : DispatchState τ) : Prop :=
  Assured P O scope o (fun _ _ => True) p s

/-! ## Parts of programs -/

theorem kept_bind {p : Dispatching α} {f : α → Dispatching β} (hs : DispatchInv P scope o s)
    (hp : Kept P O scope o p s)
    (hf : ∀ t a, DispatchInv P scope o t → Kept P O scope o (f a) t) :
    Kept P O scope o (p.bind f) s :=
  Program.assured_bind hs hp fun t a ht _ => hf t a ht

theorem kept_attempt {p : Dispatching α} (hs : DispatchInv P scope o s)
    (hp : Kept P O scope o p s) : Kept P O scope o p.attempt s :=
  Program.assured_attempt hs hp (fun _ _ _ _ => trivial) fun _ _ => trivial

theorem assured_perform (op : DispatchOp) {post : DispatchState τ → op.Reply → Prop}
    (hop : DispatchPermitted scope s op)
    (hr : ∀ t r, Later s.core t.core → DispatchInv P scope o t →
      (handler P O scope o op t).1 = .ok r → post (handler P O scope o op t).2 r) :
    Assured P O scope o post (perform op) s :=
  Program.assured_perform hop fun t r hl ht _ h => hr t r hl ht h

theorem kept_perform {op : DispatchOp} (hop : DispatchPermitted scope s op) :
    Kept P O scope o (perform op) s :=
  assured_perform op hop fun _ _ _ _ _ => trivial

/-- A program of Core keeps the discipline of the server when it keeps its own. -/
theorem assured_ofService {p : Service α} {post : Core.World τ → α → Prop}
    (h : Program.Assured (grantDiscipline o.platform O.toOracle scope) (fun _ _ => True) post p
      s.core) :
    Assured P O scope o (fun t a => post t.core a) (ofService p) s := by
  induction p generalizing s with
  | pure a => exact h
  | throw e => trivial
  | call op next ih =>
    unfold ofService
    exact ⟨h.1, fun t hl ht _ => ih _ (h.2 t.core hl ht.core trivial)⟩

/-- The lease that is read of a run is granted, for the job it carries. -/
theorem granted_of_read {runId : String} :
    Assured P O scope o (fun t r => ∀ record, r = some record →
      Granted scope t.core record.job.jobId runId) (ofService (Core.Store.lease runId)) s := by
  exact assured_ofService Core.assured_lease

/-! ## The connection -/

namespace ServerRunnerConnection

/-- The lease that an offer ends with is granted. -/
theorem granted_offer (c : RunnerConnection) (job : AcceptedExecutionJob)
    (requirements : List String) (hs : DispatchInv P scope o s) :
    Assured P O scope o (fun t lease => Granted scope t.core lease.jobId lease.runId)
      (offer o c job requirements) s := by
  refine Program.assured_bind hs (kept_perform trivial) fun t _ ht _ => ?_
  have hadmission : ∀ t : DispatchState τ,
      Kept P O scope o (authorizePayloadAdmission c job requirements) t := by
    intro t
    unfold authorizePayloadAdmission
    dsimp only
    split
    · split
      · split <;> trivial
      · trivial
    · split <;> trivial
  refine Program.assured_bind ht (hadmission t) fun t _ ht _ => ?_
  refine Program.assured_bind ht (M := fun _ _ => True)
    (assured_ofService (Core.CoreRunnerProtocolApplication.assured_createOffer o _ _ _ ht.core))
    fun t offer ht _ => ?_
  refine Program.assured_bind ht (kept_perform trivial) fun t _ ht _ => ?_
  refine Program.assured_bind ht (kept_perform trivial) fun t deferred ht _ => ?_
  apply assured_perform (.settled deferred)
  · trivial
  · intro u lease _ hu hr
    unfold handler at hr ⊢
    dsimp only at hr ⊢
    split at hr
    · next l hl =>
      cases hr
      exact hu.resolved _ (List.mem_of_getElem? hl)
    · cases hr
    · cases hr

theorem kept_acceptOffer (connection : ℕ) (offerId : String) (hs : DispatchInv P scope o s) :
    Kept P O scope o (acceptOffer o connection offerId) s := by
  refine kept_bind hs (kept_perform trivial) fun t admitted ht => ?_
  cases admitted with
  | none => trivial
  | some sessionId =>
    refine Program.assured_bind ht (assured_ofService
      (Core.CoreRunnerProtocolApplication.assured_accept o _ _ ht.core)) fun t lease ht hg => ?_
    exact kept_perform hg

end ServerRunnerConnection

/-! ## The loop -/

namespace MissionDispatchLoop

variable {options : MissionDispatchLoopOptions} {loop : ℕ} {d : MissionDispatch}

theorem kept_defer (d : MissionDispatch) (reason : MissionDispatchPendingReason)
    (hs : DispatchInv P scope o s) : Kept P O scope o (defer options loop d reason) s := by
  refine kept_bind hs ?_ fun _ _ _ => trivial
  refine kept_bind hs (kept_perform trivial) fun t previous ht => ?_
  refine kept_bind ht (kept_perform trivial) fun t nowMs ht => ?_
  exact kept_bind ht (kept_perform trivial) fun _ _ _ => trivial

/-- A dispatch is accepted with the lease of its job. -/
theorem kept_accept (status : ReceiptStatus) (lease : Option ExecutionJobLease)
    (hs : DispatchInv P scope o s) (hg : Granted scope s.core d.runnerJobId d.runId) :
    Kept P O scope o (accept options loop d status lease) s := by
  refine kept_bind hs (kept_attempt hs (kept_perform hg)) fun t outcome ht => ?_
  cases outcome with
  | error e => exact kept_defer d _ ht
  | ok accepted => exact kept_bind ht (kept_perform trivial) fun _ _ _ => trivial

theorem kept_acceptExistingLease
    {block : MissionDispatchBlockedReason → Dispatching MissionDispatchResult}
    {job : AcceptedExecutionJob} (hs : DispatchInv P scope o s)
    (hblock : ∀ t reason, DispatchInv P scope o t → Kept P O scope o (block reason) t) :
    Kept P O scope o (acceptExistingLease o options loop block d job) s := by
  refine Program.assured_bind hs granted_of_read fun t read ht hg => ?_
  cases read with
  | none => trivial
  | some record =>
    have hread := hg record rfl
    dsimp only
    split
    · exact kept_bind ht (hblock t _ ht) fun _ _ _ => trivial
    next hids =>
    push Not at hids
    rw [hids.1] at hread
    split
    · split
      · exact kept_bind ht (hblock t _ ht) fun _ _ _ => trivial
      split
      · exact kept_bind ht (hblock t _ ht) fun _ _ _ => trivial
      · exact kept_bind ht (kept_accept _ _ ht hread) fun _ _ _ => trivial
    · trivial

/-- The depth of the recursion is what the induction is on. -/
theorem kept_block {depth : ℕ} {reason : MissionDispatchBlockedReason}
    {details : Option (List (String × JsValue))} (hs : DispatchInv P scope o s) :
    Kept P O scope o (block o options loop depth d reason details) s := by
  induction depth generalizing reason details s with
  | zero => trivial
  | succ depth ih =>
    refine kept_bind hs (kept_attempt hs (kept_perform trivial)) fun t outcome ht => ?_
    cases outcome with
    | ok blocked => exact kept_bind ht (kept_perform trivial) fun _ _ _ => trivial
    | error e =>
      dsimp only
      split
      · exact kept_defer d _ ht
      · refine kept_bind ht (kept_attempt ht (kept_acceptExistingLease ht
          fun t reason ht => ih ht)) fun t existing ht => ?_
        split
        · trivial
        · exact kept_defer d _ ht

theorem kept_preOfferStopped (hs : DispatchInv P scope o s) :
    Kept P O scope o (preOfferStopped options loop d) s := by
  refine kept_bind hs (kept_perform trivial) fun t aborted ht => ?_
  split
  · trivial
  · split
    · trivial
    · refine kept_bind ht (kept_perform trivial) fun t nowMs ht => ?_
      split
      · exact kept_bind ht (kept_defer d _ ht) fun _ _ _ => trivial
      · trivial

theorem kept_authorizeConnection {depth : ℕ} {job : AcceptedExecutionJob}
    (runner : AuthenticatedRunner) (hs : DispatchInv P scope o s) :
    Kept P O scope o (authorizeConnection o options loop depth d job runner) s := by
  have hblock : ∀ reason details, Kept P O scope o
      ((block o options loop depth d reason details).bind fun r => .pure (some r)) s :=
    fun reason details => kept_bind hs (kept_block hs) fun _ _ _ => trivial
  unfold authorizeConnection
  split
  · exact hblock _ _
  · split
    · exact hblock _ _
    · split
      · exact hblock _ _
      · split
        · exact hblock _ _
        · dsimp only
          split
          · exact hblock _ _
          · trivial

theorem kept_offerRejected {depth : ℕ} {job : AcceptedExecutionJob} {error : DispatchError}
    (hs : DispatchInv P scope o s) :
    Kept P O scope o (offerRejected o options loop depth d job error) s := by
  refine kept_bind hs (kept_attempt hs (kept_acceptExistingLease hs
    fun t reason ht => kept_block ht)) fun t existing ht => ?_
  split
  · trivial
  · split
    all_goals first | exact kept_block ht | exact kept_defer d _ ht

theorem kept_offerJob {depth : ℕ} {job : AcceptedExecutionJob} (hs : DispatchInv P scope o s) :
    Kept P O scope o (offerJob o options loop depth d job) s := by
  refine kept_bind hs (kept_perform trivial) fun t connection ht => ?_
  cases connection with
  | none => exact kept_defer d _ ht
  | some connection =>
    refine kept_bind ht (kept_authorizeConnection _ ht) fun t refused ht => ?_
    cases refused with
    | some refused => trivial
    | none =>
      refine kept_bind ht (kept_preOfferStopped ht) fun t stopped ht => ?_
      cases stopped with
      | some stopped => trivial
      | none =>
        refine Program.assured_bind ht (M := fun t r => ∀ lease, r = .ok lease →
          Granted scope t.core lease.jobId lease.runId) ?_ fun t outcome ht hg => ?_
        · refine Program.assured_attempt ht
            (ServerRunnerConnection.granted_offer connection job d.requiredCapabilities ht) ?_ ?_
          · rintro t lease _ hg _ ⟨⟩
            exact hg
          · rintro t e _ ⟨⟩
        cases outcome with
        | error error => exact kept_offerRejected ht
        | ok lease =>
          dsimp only
          split
          · exact kept_block ht
          · next hids =>
            push Not at hids
            have hlease := hg lease rfl
            rw [hids.1, hids.2] at hlease
            exact kept_accept _ _ ht hlease

theorem kept_dispatch {depth : ℕ} (d : MissionDispatch) (hs : DispatchInv P scope o s) :
    Kept P O scope o (dispatch o options loop depth d) s := by
  refine kept_bind hs (kept_perform trivial) fun t deferred ht => ?_
  refine kept_bind ht (kept_perform trivial) fun t nowMs ht => ?_
  split
  · trivial
  split
  · exact kept_block ht
  split
  · exact kept_block ht
  dsimp only
  split
  · exact kept_block ht
  refine kept_bind ht (kept_acceptExistingLease ht fun t reason ht => kept_block ht)
    fun t existing ht => ?_
  cases existing with
  | some existing => trivial
  | none =>
    dsimp only
    split
    · exact kept_block ht
    · exact kept_offerJob ht

theorem kept_dispatchAll {depth : ℕ} {ds : List MissionDispatch}
    (hs : DispatchInv P scope o s) :
    Kept P O scope o (dispatchAll o options loop depth ds) s := by
  induction ds generalizing s with
  | nil => trivial
  | cons d rest ih =>
    refine kept_bind hs (kept_preOfferStopped hs) fun t stopped ht => ?_
    have hrest : ∀ (t : DispatchState τ) (result : MissionDispatchResult),
        DispatchInv P scope o t → Kept P O scope o
          ((dispatchAll o options loop depth rest).bind fun results => .pure (result :: results))
          t :=
      fun t result ht => kept_bind ht (ih ht) fun _ _ _ => trivial
    cases stopped with
    | some stopped => exact kept_bind ht trivial hrest
    | none => exact kept_bind ht (kept_dispatch d ht) hrest

theorem kept_runOnce {depth : ℕ} (hs : DispatchInv P scope o s) :
    Kept P O scope o (runOnce o options loop depth) s := by
  refine kept_bind hs (kept_perform trivial) fun t dispatches ht => ?_
  exact kept_bind ht (kept_dispatchAll ht) fun _ _ _ => trivial

end MissionDispatchLoop

theorem kept_body {loops : ℕ → MissionDispatchLoopOptions} (request : Request)
    (hs : DispatchInv P scope o s) : Kept P O scope o (request.body o loops) s := by
  cases request with
  | runOnce loop depth =>
    exact kept_bind hs (MissionDispatchLoop.kept_runOnce hs) fun _ _ _ => trivial
  | acceptOffer connection offerId =>
    exact kept_bind hs (ServerRunnerConnection.kept_acceptOffer connection offerId hs)
      fun _ _ _ => trivial
  | call c =>
    exact kept_bind hs (assured_ofService (Core.assured_call o c hs.core)) fun _ _ _ => trivial

/-! ## Histories -/

/-- Every event leaves a state that keeps the invariant and is a step on from the last. -/
structure Follows (P : PlanningPlatform) (scope : τ) (o : CoreOptions) (s t : DispatchState τ) :
    Prop where
  inv : DispatchInv P scope o t
  step : Step scope s t

theorem InMemory.follows (h : InMemory s t) (hs : DispatchInv P scope o s) :
    Follows P scope o s t := ⟨h.inv hs, h.step⟩

theorem inMemory_settleAll {offers : List (String × ℕ)} {reason : DispatchError}
    (h : InMemory s t) :
    InMemory s (offers.foldl (fun u p => u.settle p.2 (.rejected reason)) t) := by
  refine List.foldlRecOn (motive := fun u => InMemory s u) offers _ h fun u hu p _ => ?_
  unfold DispatchState.settle
  split
  · refine ⟨hu.core, hu.missions, fun l hl => ?_⟩
    rcases List.mem_or_eq_of_mem_set hl with hl | hl
    · exact hu.resolved l hl
    · cases hl
  · exact hu

theorem follows_restart (hs : DispatchInv P scope o s) :
    Follows P scope o s (s.restart P) := by
  have hstep : Step scope s (s.restart P) := .of_grows (fun _ => .refl _) (.of_eq rfl)
  refine ⟨⟨⟨?_, hs.core.named⟩, hs.missions.step .restart, ?_,
    hstep.acceptedGranted hs.accepted⟩, hstep⟩
  · rintro offerId p lease ⟨⟩
  · intro lease hmem
    cases hmem

theorem follows_turn (hs : DispatchInv P scope o s) (turn : MissionTurn) :
    Follows P scope o s { s with missions := s.missions.step P turn.val } := by
  have hstep : Step scope s { s with missions := s.missions.step P turn.val } :=
    .of_grows (.refl _) (grows_of_turn hs.missions turn)
  exact ⟨⟨hs.core, hs.missions.step turn.val, hs.resolved, hstep.acceptedGranted hs.accepted⟩,
    hstep⟩

namespace DispatchWorld

variable (P O scope o) in
/-- The state keeps its invariant and every program that is under way keeps the discipline. -/
abbrev Sound (w : DispatchWorld τ) : Prop :=
  Pool.Sound (dispatchDiscipline P O scope o) (fun _ _ _ => True) (fun _ _ _ => True) w

variable (loops : ℕ → MissionDispatchLoopOptions) {w : DispatchWorld τ}

theorem Sound.onState {f : DispatchState τ → DispatchState τ} (hw : w.Sound P O scope o)
    (hf : Follows P scope o w.shared (f w.shared)) :
    (w.onState f).Sound P O scope o ∧ Step scope w.shared (w.onState f).shared := by
  refine ⟨⟨hf.inv, fun x hx => ?_⟩, hf.step⟩
  exact (hw.2 x hx).mono (fun _ _ _ _ _ _ => trivial) hf.step.later hf.inv

theorem Sound.pool (hw : w.Sound P O scope o) (turn : Turn Request) :
    DispatchWorld.Sound P O scope o
      (Pool.step (handler P O scope o) (Request.body o loops) w turn) := by
  have hallowed : w.Allowed (fun _ _ _ => True) turn := by
    cases turn with
    | spawn r => trivial
    | advance i =>
      change Pool.NextMeets (fun _ _ _ => True) w.shared w.threads[i]?
      unfold Pool.NextMeets
      split <;> trivial
  exact Pool.Sound.step (fun _ _ _ _ _ _ _ => trivial) (fun r s hs => kept_body r hs) hw hallowed

/-- A turn of a program makes a step. -/
theorem Sound.step_advance (hw : w.Sound P O scope o) (thread : ℕ) :
    Step scope w.shared
      (Pool.step (handler P O scope o) (Request.body o loops) w (.advance thread)).shared := by
  unfold Pool.step
  dsimp only
  split
  · next r op next hthread =>
    obtain ⟨hop, _⟩ := hw.2 _ (List.mem_of_getElem? hthread)
    exact (effect_handler op).step hop
  · exact .refl _

theorem Sound.step (hw : w.Sound P O scope o) (e : DispatchEvent) :
    (w.step P O scope o loops e).Sound P O scope o ∧
      Step scope w.shared (w.step P O scope o loops e).shared := by
  have hsame : Follows P scope o w.shared w.shared := (InMemory.refl _).follows hw.1
  cases e with
  | spawn request => exact ⟨hw.pool loops _, .refl _⟩
  | advance thread =>
    unfold DispatchWorld.step
    dsimp only
    split
    · exact ⟨hw, .refl _⟩
    · exact ⟨hw.pool loops _, hw.step_advance loops thread⟩
  | connect n sessionId runner =>
    refine hw.onState ?_
    unfold DispatchState.connect
    split
    · exact hsame
    · exact InMemory.follows ⟨.inl rfl, rfl, fun _ h => h⟩ hw.1
  | release n => exact hw.onState (InMemory.follows ⟨.inl rfl, rfl, fun _ h => h⟩ hw.1)
  | dispose n reason =>
    refine hw.onState ?_
    unfold DispatchState.dispose
    split
    · exact hsame
    split
    · exact hsame
    · refine InMemory.follows (inMemory_settleAll ?_) hw.1
      exact ⟨.inl rfl, rfl, fun _ h => h⟩
  | missions turn => exact hw.onState (follows_turn hw.1 turn)
  | abort => exact hw.onState (InMemory.follows ⟨.inl rfl, rfl, fun _ h => h⟩ hw.1)
  | restart =>
    have hrestart := follows_restart hw.1
    refine ⟨⟨hrestart.inv, fun x hx => ?_⟩, hrestart.step⟩
    cases hx

theorem sound_initial : (initial : DispatchWorld τ).Sound P O scope o := by
  refine ⟨⟨⟨?_, ?_⟩, ?_, ?_, ?_⟩, fun x hx => ?_⟩
  · rintro offerId p lease ⟨⟩
  · rintro k row ⟨⟩
  · exact StartWorld.exact_after (P := P) []
  · rintro lease hmem
    cases hmem
  · rintro row hrow
    cases hrow
  · cases hx

variable (P O scope o) in
theorem sound_after (events : List DispatchEvent) :
    (after P O scope o loops events).Sound P O scope o := by
  unfold after
  refine List.foldlRecOn (motive := fun w : DispatchWorld τ => w.Sound P O scope o) events _
    sound_initial ?_
  intro w hw e _
  exact (hw.step loops e).1

/-- The rows of a world move on in every later world. -/
theorem moves_foldl (hw : w.Sound P O scope o) (later : List DispatchEvent) :
    ∀ r ∈ w.shared.missions.db.outbox.rows,
      ∃ r' ∈ (later.foldl (step P O scope o loops) w).shared.missions.db.outbox.rows,
        RowMoves r r' := by
  induction later generalizing w with
  | nil => exact fun r hr => ⟨r, hr, .same⟩
  | cons e later ih =>
    intro r hr
    obtain ⟨hnext, hstep⟩ := hw.step loops e
    obtain ⟨r', hr', hmove⟩ := hstep.outbox.kept r hr
    obtain ⟨r'', hr'', hmove'⟩ := ih hnext r' hr'
    exact ⟨r'', hr'', hmove.trans hmove'⟩

end DispatchWorld

section History

variable (P O scope o) (loops : ℕ → MissionDispatchLoopOptions)

/-- The rows of the outbox after a history. -/
def outboxAfter (events : List DispatchEvent) : List OutboxRow :=
  (DispatchWorld.after P O scope o loops events).shared.missions.db.outbox.rows

/-- The leases that were granted in a history. -/
def leasesAfter (events : List DispatchEvent) : List (Lease.LeaseRow τ) :=
  (DispatchWorld.after P O scope o loops events).shared.core.db.leases.rows

/-- In every history of the server, a row of the outbox appears as pending, moves to accepted
or blocked at most once and then stays as it is, and before it is accepted a lease of its job
and run has been granted. -/
theorem dispatches_move_once (events : List DispatchEvent) :
    (∀ later, ∀ r ∈ outboxAfter P O scope o loops events,
      ∃ r' ∈ outboxAfter P O scope o loops (events ++ later),
        RowMoves r r' ∧ (r.status ≠ .pending → r' = r)) ∧
    ∀ e, ∀ r' ∈ outboxAfter P O scope o loops (events ++ [e]),
      ((∃ r ∈ outboxAfter P O scope o loops events, RowMoves r r') ∨ r'.status = .pending) ∧
      (r'.status = .accepted → ∃ lease ∈ leasesAfter P O scope o loops events,
        lease.scope = scope ∧ lease.runId = r'.runId ∧ lease.jobId = r'.runnerJobId) := by
  have hw := DispatchWorld.sound_after P O scope o loops events
  have happend : ∀ later, DispatchWorld.after P O scope o loops (events ++ later) =
      later.foldl (DispatchWorld.step P O scope o loops)
        (DispatchWorld.after P O scope o loops events) := fun later => List.foldl_append
  unfold outboxAfter leasesAfter
  constructor
  · intro later r hr
    rw [happend]
    obtain ⟨r', hr', hmove⟩ := DispatchWorld.moves_foldl loops hw later r hr
    exact ⟨r', hr', hmove, hmove.eq_of_ne_pending⟩
  · intro e r' hr'
    rw [happend] at hr'
    obtain ⟨_, hstep⟩ := hw.step loops e
    refine ⟨hstep.outbox.origin r' hr', fun hstatus => ?_⟩
    have hgranted : Granted scope (DispatchWorld.after P O scope o loops events).shared.core
        r'.runnerJobId r'.runId := by
      rcases hstep.accepted r' hr' hstatus with hold | hg
      · exact hw.1.accepted r' hold hstatus
      · exact hg
    obtain ⟨lease, hlease, hjob⟩ := hgranted
    have hkey := Table.key_of_get hlease
    exact ⟨lease, Table.mem_of_get hlease, congrArg Prod.fst hkey, congrArg Prod.snd hkey, hjob⟩

end History

end Qualigence.Dispatch
