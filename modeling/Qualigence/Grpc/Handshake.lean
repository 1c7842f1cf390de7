import Qualigence.Core.LiveSessions
import Qualigence.Core.Offers

/-! # Handshakes of one Runner

The server keeps at most one connection of a Runner. A handshake asks the application to
open a session, which waits for its turn behind the calls that were made before; meanwhile
streams end and connections are disposed, and a connection of the current generation asks
for its session to be closed when it goes. A connection that resumes the session of another
one must not have it closed by what is left of the other.
-/

namespace Qualigence.Grpc

open Foundation Protocol Lease Core

/-! ## The server -/

structure ServerRunnerConnection where
  sessionId : String
  generation : ℕ
  disposed : Bool
  deriving DecidableEq

/-- How far the handshake of a call is. `existing` is the call of the connection that was
registered when the key was claimed. -/
inductive CallPhase where
  | authenticating (hello : RunnerHello) (identity : AuthenticatedRunnerContext)
  | resolving (hello : RunnerHello) (identity : AuthenticatedRunnerContext) (existing : Option ℕ)
  | opening (hello : RunnerHello) (identity : AuthenticatedRunnerContext) (existing : Option ℕ)
  | closing
  | connected (connection : ServerRunnerConnection)
  | ended

structure Call where
  terminated : Bool
  phase : CallPhase

/-- What waits for its turn in the application. A close is awaited by the handshake that
was given up, or by nobody; other calls neither open nor close a session. -/
inductive Task where
  | openSession (call : ℕ)
  | closeSession (sessionId : String) (awaitedBy : Option ℕ)
  | other (call : AppCall) (keeps : call.keepsSessions)

/-- The world of the application and the server, for the key of one Runner: the registered
connection, its generation, and the handshake that holds the key. -/
structure HandshakeState (τ : Type) where
  world : World τ
  calls : ℕ → Option Call
  connections : Option ℕ
  generation : ℕ
  establishing : Option ℕ
  queue : List Task

def HandshakeState.initial {τ : Type} : HandshakeState τ where
  world := .initial
  calls := fun _ => none
  connections := none
  generation := 0
  establishing := none
  queue := []

inductive HandshakeEvent where
  | hello (call : ℕ) (hello : RunnerHello) (identity : AuthenticatedRunnerContext)
  | authenticated (call : ℕ) (admitted : Bool)
  | resolved (call : ℕ) (found : Bool)
  | runNext
  | other (call : AppCall)
  | overflow (call : ℕ)
  | streamEnd (call : ℕ)
  | dispose (call : ℕ)

namespace HandshakeState

variable {τ : Type}

def setCall (s : HandshakeState τ) (c : ℕ) (call : Call) : HandshakeState τ :=
  { s with calls := Function.update s.calls c (some call) }

/-- `releaseConnection`. -/
def release (s : HandshakeState τ) (c : ℕ) : HandshakeState τ :=
  if s.connections = some c then { s with connections := none } else s

/-- `dispose` of a connection: the first time, and if its generation is current, it asks for
its session to be closed. -/
def dispose (s : HandshakeState τ) (c : ℕ) : HandshakeState τ :=
  match s.calls c with
  | some ⟨terminated, .connected connection⟩ =>
    if connection.disposed then s
    else
      let t := s.setCall c ⟨terminated, .connected { connection with disposed := true }⟩
      if connection.generation = s.generation then
        { t with queue := s.queue ++ [.closeSession connection.sessionId none] }
      else t
  | _ => s

/-- The part of `establishSession` before the application is resolved: the key is claimed. -/
def claim (s : HandshakeState τ) (c : ℕ) (terminated : Bool) (hello : RunnerHello)
    (identity : AuthenticatedRunnerContext) : HandshakeState τ :=
  if terminated ∨ s.establishing.isSome ∨
      (s.connections.isSome ∧ hello.resumeToken = none) then
    s.setCall c ⟨terminated, .ended⟩
  else
    { s.setCall c ⟨terminated, .resolving hello identity s.connections⟩ with
      establishing := some c }

/-- The connection that a handshake found is released and disposed. -/
def supersede (s : HandshakeState τ) : Option ℕ → HandshakeState τ
  | none => s
  | some existing => (s.release existing).dispose existing

/-- The part of `establishSession` after the session was opened: the new connection is of
the next generation and supersedes the existing one. -/
def register (s : HandshakeState τ) (c : ℕ) (existing : Option ℕ) (sessionId : String) :
    HandshakeState τ :=
  let generation := s.generation + 1
  let t := { s with generation }.supersede existing
  { t.setCall c ⟨false, .connected ⟨sessionId, generation, false⟩⟩ with
    connections := some c
    establishing := none }

/-- The stream of a call ended, failed or was cancelled. -/
def teardown (s : HandshakeState τ) (c : ℕ) : HandshakeState τ :=
  match s.calls c with
  | none => s
  | some call => match call.phase with
    | .connected _ => ((s.setCall c { call with terminated := true }).release c).dispose c
    | _ => s.setCall c { call with terminated := true }

variable [DecidableEq τ] (O : Oracle) (scope : τ) (o : CoreOptions)

/-- The application runs a task to its end, and a handshake that waits for it goes on. -/
def runTask (s : HandshakeState τ) : Task → HandshakeState τ
  | .openSession c => match s.calls c with
    | some ⟨terminated, .opening hello identity existing⟩ =>
      match (CoreRunnerProtocolApplication.openSession o hello identity).run
        (handler o.platform O scope) s.world with
      | (.error _, world) =>
        { s.setCall c ⟨terminated, .ended⟩ with world, establishing := none }
      | (.ok welcome, world) =>
        if terminated then
          { s.setCall c ⟨terminated, .closing⟩ with
            world
            queue := s.queue ++ [.closeSession welcome.sessionId (some c)] }
        else { s with world }.register c existing welcome.sessionId
    | _ => s
  | .closeSession sessionId awaitedBy =>
    let world := ((CoreRunnerProtocolApplication.closeSession sessionId).run
      (handler o.platform O scope) s.world).2
    match awaitedBy with
    | none => { s with world }
    | some c => match s.calls c with
      | some ⟨terminated, .closing⟩ =>
        { s.setCall c ⟨terminated, .ended⟩ with world, establishing := none }
      | _ => { s with world }
  | .other call _ => { s with world := ((call.body o).run (handler o.platform O scope) s.world).2 }

def step (s : HandshakeState τ) : HandshakeEvent → HandshakeState τ
  | .hello c hello identity => match s.calls c with
    | some _ => s
    | none => s.setCall c ⟨false, .authenticating hello identity⟩
  | .authenticated c admitted => match s.calls c with
    | some ⟨terminated, .authenticating hello identity⟩ =>
      if admitted then s.claim c terminated hello identity
      else s.setCall c ⟨terminated, .ended⟩
    | _ => s
  | .resolved c found => match s.calls c with
    | some ⟨terminated, .resolving hello identity existing⟩ =>
      if found then
        { s.setCall c ⟨terminated, .opening hello identity existing⟩ with
          queue := s.queue ++ [.openSession c] }
      else { s.setCall c ⟨terminated, .ended⟩ with establishing := none }
    | _ => s
  | .runNext => match s.queue with
    | [] => s
    | task :: queue => { s with queue }.runTask O scope o task
  | .other call =>
    -- sessions are opened and closed by handshakes and connections only
    if h : call.keepsSessions then { s with queue := s.queue ++ [.other call h] } else s
  | .overflow c => match s.calls c with
    | some ⟨_, .connected _⟩ => s.dispose c
    | some call => s.setCall c { call with terminated := true }
    | none => s
  | .streamEnd c => s.teardown c
  | .dispose c => s.dispose c

/-- The state after a sequence of events. -/
def after (events : List HandshakeEvent) : HandshakeState τ :=
  events.foldl (step O scope o) .initial

end HandshakeState

/-! ## The property and its condition -/

section Property

variable {τ : Type} [DecidableEq τ]

/-- The connection of a call that is not disposed and of the current generation. -/
def HandshakeState.openConnection (s : HandshakeState τ) (c : ℕ) :
    Option ServerRunnerConnection :=
  match s.calls c with
  | some ⟨_, .connected connection⟩ =>
    if ¬ connection.disposed ∧ connection.generation = s.generation then some connection
    else none
  | _ => none

/-- The session of the current connection is live. -/
def CurrentSessionLive (s : HandshakeState τ) : Prop :=
  ∀ c ∈ s.connections, ∀ connection ∈ s.openConnection c,
    (s.world.live connection.sessionId).isSome

instance (s : HandshakeState τ) : Decidable (CurrentSessionLive s) :=
  inferInstanceAs (Decidable (∀ c ∈ s.connections, ∀ connection ∈ s.openConnection c,
    (s.world.live connection.sessionId).isSome))

/-- The session that a waiting task resumes by its token. -/
def HandshakeState.resumes (s : HandshakeState τ) (scope : τ) (o : CoreOptions) :
    Task → Option String
  | .openSession c => match s.calls c with
    | some ⟨_, .opening hello _ _⟩ => boundSession scope o s.world hello
    | _ => none
  | _ => none

/-- The task opens a session for a call that was given up. -/
def HandshakeState.abandoned (s : HandshakeState τ) : Task → Bool
  | .openSession c => ((s.calls c).map (·.terminated)).getD false
  | _ => false

/-- No connection closes its session while that session waits to be resumed, and no session
of an open connection is resumed by a call that was given up. -/
def Undisturbed (scope : τ) (o : CoreOptions) (s : HandshakeState τ) : HandshakeEvent → Prop
  | .dispose c | .streamEnd c | .overflow c => ∀ connection ∈ s.openConnection c,
    ∀ task ∈ s.queue, s.resumes scope o task ≠ some connection.sessionId
  | .runNext => ∀ task ∈ s.queue.head?, s.abandoned task → ∀ c ∈ s.connections,
    ∀ connection ∈ s.openConnection c, s.resumes scope o task ≠ some connection.sessionId
  | _ => True

instance decidableUndisturbed (scope : τ) (o : CoreOptions) (s : HandshakeState τ) :
    (e : HandshakeEvent) → Decidable (Undisturbed scope o s e)
  | .dispose c | .streamEnd c | .overflow c => inferInstanceAs (Decidable
      (∀ connection ∈ s.openConnection c, ∀ task ∈ s.queue,
        s.resumes scope o task ≠ some connection.sessionId))
  | .runNext => inferInstanceAs (Decidable (∀ task ∈ s.queue.head?, s.abandoned task →
      ∀ c ∈ s.connections, ∀ connection ∈ s.openConnection c,
        s.resumes scope o task ≠ some connection.sessionId))
  | .hello _ _ _ | .authenticated _ _ | .resolved _ _ | .other _ => isTrue trivial

/-! ## The invariant -/

/-- An open connection is registered and current, its session is live, and nothing waits to
close it. -/
structure OpenOk (s : HandshakeState τ) (c : ℕ) (connection : ServerRunnerConnection) : Prop where
  registered : s.connections = some c
  current : connection.generation = s.generation
  live : (s.world.live connection.sessionId).isSome
  kept : ∀ a, .closeSession connection.sessionId a ∉ s.queue

/-- A handshake with a claim holds the key; a connection that is registered meanwhile is
the one it found, and without a token it found none. -/
structure ClaimOk (s : HandshakeState τ) (c : ℕ) (hello : RunnerHello) (existing : Option ℕ) :
    Prop where
  holds : s.establishing = some c
  found : ∀ r, s.connections = some r → existing = some r
  fresh : hello.resumeToken = none → s.connections = none

def PhaseOk (s : HandshakeState τ) (c : ℕ) : CallPhase → Prop
  | .connected connection => connection.disposed = false → OpenOk s c connection
  | .resolving hello _ existing | .opening hello _ existing => ClaimOk s c hello existing
  | .closing => s.establishing = some c
  | .authenticating _ _ | .ended => True

/-- Behind a session that waits to be opened no other one waits, and none that it may open
waits to be closed. -/
def Before (scope : τ) (o : CoreOptions) (s : HandshakeState τ) (task later : Task) : Prop :=
  ∀ c, task = .openSession c → (∀ d, later ≠ .openSession d) ∧
    ∀ sessionId a, later = .closeSession sessionId a → ∀ terminated hello identity existing,
      s.calls c = some ⟨terminated, .opening hello identity existing⟩ →
      ¬ Reopens scope o s.world hello sessionId

structure HandshakeState.Ok (scope : τ) (o : CoreOptions) (s : HandshakeState τ) : Prop where
  phase : ∀ c call, s.calls c = some call → PhaseOk s c call.phase
  queued : ∀ c, .openSession c ∈ s.queue → ∃ terminated hello identity existing,
    s.calls c = some ⟨terminated, .opening hello identity existing⟩
  ordered : s.queue.Pairwise (Before scope o s)

variable {scope : τ} {o : CoreOptions} {s : HandshakeState τ}

theorem ok_handshake_initial : (HandshakeState.initial : HandshakeState τ).Ok scope o where
  phase := by rintro _ _ ⟨⟩
  queued := by rintro _ ⟨⟩
  ordered := .nil

omit [DecidableEq τ] in
theorem openConnection_eq_some {c : ℕ} {connection : ServerRunnerConnection} :
    s.openConnection c = some connection ↔
      (∃ terminated, s.calls c = some ⟨terminated, .connected connection⟩) ∧
        connection.disposed = false ∧ connection.generation = s.generation := by
  unfold HandshakeState.openConnection
  split
  · next terminated conn hc =>
    simp only [hc, Option.ite_none_right_eq_some, Option.some.injEq, Bool.not_eq_true,
      Call.mk.injEq, CallPhase.connected.injEq, exists_and_right]
    constructor
    · rintro ⟨⟨hd, hg⟩, rfl⟩
      exact ⟨⟨⟨terminated, rfl⟩, rfl⟩, hd, hg⟩
    · rintro ⟨⟨-, rfl⟩, hd, hg⟩
      exact ⟨⟨hd, hg⟩, rfl⟩
  · next hn =>
    constructor
    · rintro ⟨⟩
    · rintro ⟨⟨terminated, hc⟩, -⟩
      exact absurd hc (hn terminated connection)

/-- A connection that is not disposed is open. -/
theorem HandshakeState.Ok.openConnection_of_connected (h : s.Ok scope o) {c : ℕ}
    {terminated : Bool} {connection : ServerRunnerConnection}
    (hc : s.calls c = some ⟨terminated, .connected connection⟩)
    (hd : connection.disposed = false) : s.openConnection c = some connection :=
  openConnection_eq_some.mpr ⟨⟨terminated, hc⟩, hd, (h.phase c _ hc hd).current⟩

theorem HandshakeState.Ok.currentSessionLive (h : s.Ok scope o) : CurrentSessionLive s := by
  intro c _ connection hopen
  obtain ⟨⟨terminated, hc⟩, hd, -⟩ := openConnection_eq_some.mp hopen
  exact (h.phase c _ hc hd).live

/-- Only the phase of an opening call matters to those that wait behind it. -/
theorem before_congr {s' : HandshakeState τ} {task later : Task}
    (h : Before scope o s task later) (hw : s'.world.db.tokens = s.world.db.tokens)
    (hc : ∀ c terminated hello identity existing, task = .openSession c →
      s'.calls c = some ⟨terminated, .opening hello identity existing⟩ →
      ∃ terminated', s.calls c = some ⟨terminated', .opening hello identity existing⟩) :
    Before scope o s' task later := by
  intro c htask
  obtain ⟨hopen, hclose⟩ := h c htask
  refine ⟨hopen, fun sessionId a hl terminated hello identity existing hcall => ?_⟩
  obtain ⟨terminated', hcall'⟩ := hc c terminated hello identity existing htask hcall
  rw [reopens_congr hw]
  exact hclose sessionId a hl terminated' hello identity existing hcall'

/-- The phase of a handshake that holds the key. -/
def CallPhase.claims : CallPhase → Bool
  | .resolving _ _ _ | .opening _ _ _ | .closing => true
  | .authenticating _ _ | .connected _ | .ended => false

omit [DecidableEq τ] in
theorem PhaseOk.holds {c : ℕ} {p : CallPhase} (h : PhaseOk s c p) (hp : p.claims) :
    s.establishing = some c := by
  cases p with
  | resolving hello identity existing => exact ClaimOk.holds h
  | opening hello identity existing => exact ClaimOk.holds h
  | closing => exact h
  | _ => cases hp

omit [DecidableEq τ] in
/-- What a phase says of the state: a claim who holds the key, and an open connection that
its session is live and not about to be closed. -/
theorem phaseOk_congr {s' : HandshakeState τ} {c : ℕ} {p : CallPhase} (h : PhaseOk s c p)
    (hconn : s'.connections = s.connections) (hgen : s'.generation = s.generation)
    (hest : p.claims → s'.establishing = s.establishing)
    (hopen : ∀ connection, p = .connected connection → connection.disposed = false →
      ((s.world.live connection.sessionId).isSome →
        (s'.world.live connection.sessionId).isSome) ∧
      ∀ a, .closeSession connection.sessionId a ∈ s'.queue →
        .closeSession connection.sessionId a ∈ s.queue) : PhaseOk s' c p := by
  cases p with
  | connected connection =>
    intro hd
    obtain ⟨hr, hc, hl, hk⟩ := h hd
    obtain ⟨hlive, hq⟩ := hopen connection rfl hd
    exact ⟨hconn ▸ hr, hgen ▸ hc, hlive hl, fun a ha => hk a (hq a ha)⟩
  | resolving hello identity existing =>
    exact ⟨(hest rfl).trans (h.holds rfl), hconn ▸ h.found, hconn ▸ h.fresh⟩
  | opening hello identity existing =>
    exact ⟨(hest rfl).trans (h.holds rfl), hconn ▸ h.found, hconn ▸ h.fresh⟩
  | closing => exact (hest rfl).trans h
  | authenticating hello identity => trivial
  | ended => trivial

/-- The world moves on without touching sessions. -/
theorem HandshakeState.Ok.sameSessions (h : s.Ok scope o) {world : World τ}
    (hw : SameSessions s.world world) : ({ s with world } : HandshakeState τ).Ok scope o where
  phase c call hc := phaseOk_congr (h.phase c call hc) rfl rfl (fun _ => rfl)
    fun _ _ _ => ⟨fun hl => hw.live ▸ hl, fun _ ha => ha⟩
  queued := h.queued
  ordered := by
    refine h.ordered.imp fun hb => ?_
    exact before_congr hb hw.tokens fun _ t _ _ _ _ hc => ⟨t, hc⟩

/-- The first task is taken from the queue. -/
theorem HandshakeState.Ok.tail (h : s.Ok scope o) {task : Task} {queue : List Task}
    (hq : s.queue = task :: queue) : ({ s with queue } : HandshakeState τ).Ok scope o where
  phase c call hc := by
    refine phaseOk_congr (h.phase c call hc) rfl rfl (fun _ => rfl)
      fun _ _ _ => ⟨id, fun a ha => ?_⟩
    rw [hq]
    exact List.mem_cons_of_mem _ ha
  queued c hc := h.queued c (by rw [hq]; exact List.mem_cons_of_mem _ hc)
  ordered := by
    have ho := h.ordered
    rw [hq] at ho
    exact (List.pairwise_cons.mp ho).2

/-- A task gets in line. -/
theorem HandshakeState.Ok.push (h : s.Ok scope o) {task : Task}
    (hclose : ∀ c terminated connection,
      s.calls c = some ⟨terminated, .connected connection⟩ → connection.disposed = false →
      ∀ a, task ≠ .closeSession connection.sessionId a)
    (hopen : ∀ c, task = .openSession c → ∃ terminated hello identity existing,
      s.calls c = some ⟨terminated, .opening hello identity existing⟩)
    (hbefore : ∀ t ∈ s.queue, Before scope o s t task) :
    ({ s with queue := s.queue ++ [task] } : HandshakeState τ).Ok scope o where
  phase c call hc := by
    refine phaseOk_congr (h.phase c call hc) rfl rfl (fun _ => rfl)
      fun connection hp hd => ⟨id, fun a ha => ?_⟩
    rcases List.mem_append.mp ha with ha | ha
    · exact ha
    · have hcall : s.calls c = some ⟨call.terminated, .connected connection⟩ := by
        rw [← hp]
        exact hc
      exact absurd (List.mem_singleton.mp ha).symm (hclose c _ connection hcall hd a)
  queued c hc := by
    rcases List.mem_append.mp hc with hc | hc
    · exact h.queued c hc
    · exact hopen c (List.mem_singleton.mp hc).symm
  ordered := by
    refine List.pairwise_append.mpr ⟨h.ordered, List.pairwise_singleton _ _, ?_⟩
    intro t ht u hu
    rw [List.mem_singleton.mp hu]
    exact hbefore t ht

omit [DecidableEq τ] in
theorem calls_setCall {c d : ℕ} {call call' : Call}
    (h : (s.setCall c call).calls d = some call') :
    (d = c ∧ call' = call) ∨ (d ≠ c ∧ s.calls d = some call') := by
  unfold HandshakeState.setCall at h
  dsimp only at h
  rcases eq_or_ne d c with rfl | hd
  · rw [Function.update_self] at h
    exact .inl ⟨rfl, (Option.some.inj h).symm⟩
  · rw [Function.update_of_ne hd] at h
    exact .inr ⟨hd, h⟩

/-- A call that does not wait to open a session changes its phase. -/
theorem HandshakeState.Ok.setCall (h : s.Ok scope o) (c : ℕ) (call : Call)
    (hc : PhaseOk s c call.phase) (hq : .openSession c ∉ s.queue) :
    (s.setCall c call).Ok scope o where
  phase d call' hd := by
    rcases calls_setCall hd with ⟨rfl, rfl⟩ | ⟨-, hd⟩
    · exact phaseOk_congr hc rfl rfl (fun _ => rfl) fun _ _ _ => ⟨id, fun _ => id⟩
    · exact phaseOk_congr (h.phase d call' hd) rfl rfl (fun _ => rfl) fun _ _ _ => ⟨id, fun _ => id⟩
  queued d hd := by
    obtain ⟨t, hello, identity, existing, hcall⟩ := h.queued d hd
    have hne : d ≠ c := fun he => hq (he ▸ hd)
    exact ⟨t, hello, identity, existing, (Function.update_of_ne hne _ _).trans hcall⟩
  ordered := by
    refine h.ordered.imp_of_mem fun {t u} ht _ hb => ?_
    refine before_congr hb rfl fun d t' hello identity existing htask hcall => ?_
    rcases calls_setCall hcall with ⟨rfl, -⟩ | ⟨-, hcall⟩
    · exact absurd (htask ▸ ht) hq
    · exact ⟨t', hcall⟩

/-- A call is given up. -/
theorem HandshakeState.Ok.terminate (h : s.Ok scope o) {c : ℕ} {call : Call}
    (hcall : s.calls c = some call) :
    (s.setCall c { call with terminated := true }).Ok scope o where
  phase d call' hd := by
    rcases calls_setCall hd with ⟨rfl, rfl⟩ | ⟨-, hd⟩
    · exact phaseOk_congr (h.phase d call hcall) rfl rfl (fun _ => rfl)
        fun _ _ _ => ⟨id, fun _ => id⟩
    · exact phaseOk_congr (h.phase d call' hd) rfl rfl (fun _ => rfl) fun _ _ _ => ⟨id, fun _ => id⟩
  queued d hd := by
    obtain ⟨t, hello, identity, existing, hcall'⟩ := h.queued d hd
    rcases eq_or_ne d c with rfl | hne
    · rw [hcall] at hcall'
      cases hcall'
      exact ⟨true, hello, identity, existing, Function.update_self _ _ _⟩
    · exact ⟨t, hello, identity, existing, (Function.update_of_ne hne _ _).trans hcall'⟩
  ordered := by
    refine h.ordered.imp fun hb => ?_
    refine before_congr hb rfl fun d t hello identity existing _ hd => ?_
    rcases calls_setCall hd with ⟨rfl, he⟩ | ⟨-, hd⟩
    · obtain ⟨t', phase⟩ := call
      cases he
      exact ⟨t', hcall⟩
    · exact ⟨t, hd⟩

/-! ## Steps of the server -/

theorem HandshakeState.Ok.not_queued (h : s.Ok scope o) {c : ℕ} {call : Call}
    (hc : s.calls c = some call)
    (hp : ∀ hello identity existing, call.phase ≠ .opening hello identity existing) :
    .openSession c ∉ s.queue := by
  intro hq
  obtain ⟨t, hello, identity, existing, hcall⟩ := h.queued c hq
  rw [hc] at hcall
  cases hcall
  exact hp hello identity existing rfl

theorem ok_release (h : s.Ok scope o) {c : ℕ}
    (hc : ∀ terminated connection, s.calls c = some ⟨terminated, .connected connection⟩ →
      connection.disposed = true) : (s.release c).Ok scope o := by
  unfold HandshakeState.release
  split
  · next hreg =>
    refine ⟨fun d call hd => ?_, h.queued, h.ordered⟩
    have hphase := h.phase d call hd
    cases hp : call.phase with
    | connected connection =>
      rw [hp] at hphase
      intro hdisp
      have hopen := hphase hdisp
      have hdc : d = c := Option.some.inj (hopen.registered.symm.trans hreg)
      have hcall : s.calls c = some ⟨call.terminated, .connected connection⟩ := by
        rw [← hdc, ← hp]
        exact hd
      rw [hc _ _ hcall] at hdisp
      cases hdisp
    | resolving hello identity existing =>
      rw [hp] at hphase
      exact ⟨hphase.holds rfl, by rintro _ ⟨⟩, fun _ => rfl⟩
    | opening hello identity existing =>
      rw [hp] at hphase
      exact ⟨hphase.holds rfl, by rintro _ ⟨⟩, fun _ => rfl⟩
    | closing =>
      rw [hp] at hphase
      exact hphase
    | authenticating hello identity => trivial
    | ended => trivial
  · exact h

/-- The connection of a call, if any, is disposed. -/
def DisposedAt (s : HandshakeState τ) (c : ℕ) : Prop :=
  ∀ terminated connection, s.calls c = some ⟨terminated, .connected connection⟩ →
    connection.disposed = true

theorem ok_dispose (h : s.Ok scope o) {c : ℕ} (hu : ∀ connection ∈ s.openConnection c,
      ∀ task ∈ s.queue, s.resumes scope o task ≠ some connection.sessionId) :
    (s.dispose c).Ok scope o ∧ DisposedAt (s.dispose c) c := by
  unfold HandshakeState.dispose
  split
  · next terminated connection hc =>
    split
    · next hd =>
      refine ⟨h, fun t conn hcall => ?_⟩
      rw [hc] at hcall
      cases hcall
      exact hd
    next hd =>
    have hd : connection.disposed = false := Bool.eq_false_iff.mpr hd
    have hopen := h.phase c _ hc hd
    have hset : (s.setCall c ⟨terminated, .connected { connection with disposed := true }⟩).Ok
        scope o := by
      refine h.setCall _ _ (by rintro ⟨⟩) (h.not_queued hc ?_)
      rintro _ _ _ ⟨⟩
    have hdisp : ∀ t conn, Function.update s.calls c (some ⟨terminated,
        .connected { connection with disposed := true }⟩) c = some ⟨t, .connected conn⟩ →
        conn.disposed = true := by
      intro t conn hcall
      rw [Function.update_self] at hcall
      cases hcall
      rfl
    rw [if_pos hopen.current]
    refine ⟨hset.push ?_ (by rintro _ ⟨⟩) ?_, hdisp⟩
    · -- every other connection is disposed already
      intro d t conn hcall hconn
      rcases calls_setCall hcall with ⟨rfl, he⟩ | ⟨hne, hcall⟩
      · cases he
        cases hconn
      · have hreg := (h.phase d _ hcall hconn).registered
        rw [hopen.registered] at hreg
        exact absurd (Option.some.inj hreg).symm hne
    · rintro task ht d rfl
      refine ⟨(by rintro _ ⟨⟩), ?_⟩
      rintro sessionId a ⟨⟩ t hello identity existing hcall hre
      rcases calls_setCall hcall with ⟨rfl, he⟩ | ⟨-, hcall⟩
      · cases he
      rcases hre with hnone | hbound
      · -- without a token there was no connection to dispose
        have hclaim : ClaimOk s d hello existing := h.phase d _ hcall
        have hreg := hclaim.fresh hnone
        rw [hopen.registered] at hreg
        cases hreg
      · refine hu connection (h.openConnection_of_connected hc hd) _ ht ?_
        unfold HandshakeState.resumes
        dsimp only
        rw [hcall]
        exact hbound
  · next hn =>
    refine ⟨h, fun t conn hcall => absurd hcall (hn t conn)⟩

omit [DecidableEq τ] in
theorem dispose_release (s : HandshakeState τ) (c d : ℕ) :
    (s.release d).dispose c = (s.dispose c).release d := by
  unfold HandshakeState.release HandshakeState.dispose HandshakeState.setCall
  repeat' split
  all_goals simp_all

theorem ok_teardown (h : s.Ok scope o) {c : ℕ} (hu : ∀ connection ∈ s.openConnection c,
      ∀ task ∈ s.queue, s.resumes scope o task ≠ some connection.sessionId) :
    (s.teardown c).Ok scope o := by
  unfold HandshakeState.teardown
  split
  · exact h
  next call hc =>
  have ht := h.terminate hc
  split
  · next connection hp =>
    rw [dispose_release]
    have hq : .openSession c ∉ s.queue := h.not_queued hc (by rw [hp]; rintro _ _ _ ⟨⟩)
    have hdisp := ok_dispose ht (c := c) (by
      intro conn hconn task htask
      obtain ⟨⟨t, hcall⟩, hd, hg⟩ := openConnection_eq_some.mp hconn
      have hcall' : s.calls c = some ⟨call.terminated, .connected conn⟩ := by
        rcases calls_setCall hcall with ⟨-, he⟩ | ⟨hne, -⟩
        · obtain ⟨t', phase⟩ := call
          cases he
          exact hc
        · exact absurd rfl hne
      have hres := hu conn (openConnection_eq_some.mpr ⟨⟨_, hcall'⟩, hd, hg⟩) task htask
      cases task with
      | openSession d =>
        have hne : d ≠ c := fun he => hq (he ▸ htask)
        have hcd : (s.setCall c { call with terminated := true }).calls d = s.calls d :=
          Function.update_of_ne hne _ _
        unfold HandshakeState.resumes at hres ⊢
        dsimp only at hres ⊢
        rw [hcd]
        exact hres
      | closeSession sessionId a => exact hres
      | other call keeps => exact hres)
    exact ok_release hdisp.1 hdisp.2
  · exact ht

/-! ## The application takes its turns -/

omit [DecidableEq τ] in
/-- A connection of an older generation goes without closing its session. -/
theorem dispose_older {c : ℕ} (hgen : ∀ terminated connection,
      s.calls c = some ⟨terminated, .connected connection⟩ → connection.disposed = false →
      connection.generation ≠ s.generation) :
    (s.dispose c).queue = s.queue ∧ (s.dispose c).world = s.world ∧
      (s.dispose c).generation = s.generation ∧ ∀ d call, (s.dispose c).calls d = some call →
        (∃ connection, call.phase = .connected connection ∧ connection.disposed = true) ∨
          (s.calls d = some call ∧ (d = c → ∀ connection, call.phase ≠ .connected connection)) := by
  unfold HandshakeState.dispose
  split
  · next terminated connection hc =>
    split
    · next hd =>
      refine ⟨rfl, rfl, rfl, fun d call hcall => ?_⟩
      rcases eq_or_ne d c with rfl | hne
      · rw [hc] at hcall
        cases hcall
        exact .inl ⟨connection, rfl, hd⟩
      · exact .inr ⟨hcall, fun he => absurd he hne⟩
    next hd =>
    rw [if_neg (hgen terminated connection hc (Bool.eq_false_iff.mpr hd))]
    refine ⟨rfl, rfl, rfl, fun d call hcall => ?_⟩
    rcases calls_setCall hcall with ⟨rfl, rfl⟩ | ⟨hne, hcall⟩
    · exact .inl ⟨_, rfl, rfl⟩
    · exact .inr ⟨hcall, fun he => absurd he hne⟩
  · next hn =>
    refine ⟨rfl, rfl, rfl, fun d call hcall => .inr ⟨hcall, ?_⟩⟩
    rintro rfl connection hp
    obtain ⟨t, p⟩ := call
    cases hp
    exact hn t connection hcall

omit [DecidableEq τ] in
theorem release_eq (s : HandshakeState τ) (c : ℕ) : (s.release c).queue = s.queue ∧
    (s.release c).world = s.world ∧ (s.release c).generation = s.generation ∧
    (s.release c).calls = s.calls := by
  unfold HandshakeState.release
  split <;> exact ⟨rfl, rfl, rfl, rfl⟩

omit [DecidableEq τ] in
theorem supersede_older {existing : Option ℕ} (hgen : ∀ c terminated connection,
      s.calls c = some ⟨terminated, .connected connection⟩ → connection.disposed = false →
      connection.generation ≠ s.generation) :
    (s.supersede existing).queue = s.queue ∧ (s.supersede existing).world = s.world ∧
      (s.supersede existing).generation = s.generation ∧
      ∀ d call, (s.supersede existing).calls d = some call →
        (∃ connection, call.phase = .connected connection ∧ connection.disposed = true) ∨
          (s.calls d = some call ∧
            (existing = some d → ∀ connection, call.phase ≠ .connected connection)) := by
  cases existing with
  | none =>
    refine ⟨rfl, rfl, rfl, fun d call hcall => .inr ⟨hcall, ?_⟩⟩
    rintro ⟨⟩
  | some e =>
    obtain ⟨hq, hw, hg, hcalls⟩ := release_eq s e
    have hdisp := dispose_older (s := s.release e) (c := e) (by
      intro t connection hc
      rw [hcalls] at hc
      rw [hg]
      exact hgen e t connection hc)
    refine ⟨hdisp.1.trans hq, hdisp.2.1.trans hw, hdisp.2.2.1.trans hg, fun d call hcall => ?_⟩
    rcases hdisp.2.2.2 d call hcall with hd | ⟨hc, hne⟩
    · exact .inl hd
    · rw [hcalls] at hc
      exact .inr ⟨hc, fun he => hne (Option.some.inj he).symm⟩

theorem pairwise_before {queue : List Task} (h : ∀ d, .openSession d ∉ queue) :
    queue.Pairwise (Before scope o s) := by
  refine List.Pairwise.imp_of_mem (R := fun _ _ => True) (fun {t u} ht _ _ => ?_)
    (List.pairwise_of_forall fun _ _ => trivial)
  rintro d rfl
  exact absurd ht (h d)

/-- The handshake of a call has the claim, and no session waits to be opened. -/
structure Claimed (scope : τ) (o : CoreOptions) (s : HandshakeState τ) (c : ℕ)
    (hello : RunnerHello) (existing : Option ℕ) : Prop where
  ok : s.Ok scope o
  claim : ClaimOk s c hello existing
  alone : ∀ d, .openSession d ∉ s.queue

variable {c : ℕ} {hello : RunnerHello} {existing : Option ℕ} {sessionId : String}

/-- No other call has a claim, so who holds the key does not matter to it. -/
theorem Claimed.others (h : Claimed scope o s c hello existing) {d : ℕ} {call : Call}
    (hd : s.calls d = some call) (hne : d ≠ c) (establishing : Option ℕ) :
    PhaseOk { s with establishing } d call.phase := by
  have hphase := h.ok.phase d call hd
  refine phaseOk_congr hphase rfl rfl (fun hp => ?_) fun _ _ _ => ⟨id, fun _ => id⟩
  exact absurd (Option.some.inj ((hphase.holds hp).symm.trans h.claim.holds)) hne

/-- The new connection is open, and every other one is disposed. -/
theorem Claimed.register (h : Claimed scope o s c hello existing) {world : World τ}
    {record : RunnerSessionRecord} (hkept : ∀ a, .closeSession sessionId a ∉ s.queue)
    (hlive : world.live = Function.update s.world.live sessionId (some record)) :
    ({ s with world }.register c existing sessionId).Ok scope o := by
  have hgen : ∀ d t connection, s.calls d = some ⟨t, .connected connection⟩ →
      connection.disposed = false → connection.generation ≠ s.generation + 1 := by
    intro d t connection hd hdisp
    have hcur := (h.ok.phase d _ hd hdisp).current
    omega
  obtain ⟨hq, hw, hg, hcalls⟩ := supersede_older
    (s := { s with world, generation := s.generation + 1 }) hgen
  unfold HandshakeState.register
  dsimp only
  generalize ({ s with world, generation := s.generation + 1 } :
    HandshakeState τ).supersede existing = u at hq hw hg hcalls ⊢
  have hnone : ∀ d, .openSession d ∉ u.queue := by
    intro d
    rw [hq]
    exact h.alone d
  refine ⟨fun d call hd => ?_, fun d hd => absurd hd (hnone d), ?_⟩
  · rcases calls_setCall hd with ⟨rfl, rfl⟩ | ⟨hne, hd⟩
    · intro _
      refine ⟨rfl, hg.symm, ?_, fun a ha => ?_⟩
      · change (u.world.live sessionId).isSome
        rw [hw, hlive, Function.update_self]
        rfl
      · change _ ∈ u.queue at ha
        rw [hq] at ha
        exact hkept a ha
    · rcases hcalls d call hd with ⟨connection, hp, hdisp⟩ | ⟨hold, hfound⟩
      · rw [hp]
        intro hf
        rw [hdisp] at hf
        cases hf
      · -- an open one would be the one that the handshake found
        have hphase := h.others hold hne none
        cases hp : call.phase with
        | connected connection =>
          intro hdisp
          rw [hp] at hphase
          exact absurd hp (hfound (h.claim.found d (hphase hdisp).registered) connection)
        | authenticating hello identity => trivial
        | ended => trivial
        | _ =>
          rw [hp] at hphase
          cases hphase.holds rfl
  · exact pairwise_before hnone

variable {O : Oracle}

/-- When its turn comes, nothing behind it closes a session that it may open. -/
theorem claimed_of_head {queue : List Task} (h : s.Ok scope o)
    (hq : s.queue = .openSession c :: queue) {terminated : Bool}
    {identity : AuthenticatedRunnerContext}
    (hc : s.calls c = some ⟨terminated, .opening hello identity existing⟩) :
    Claimed scope o { s with queue } c hello existing ∧ ∀ sessionId a,
      .closeSession sessionId a ∈ queue → ¬ Reopens scope o s.world hello sessionId := by
  have ho := h.ordered
  rw [hq] at ho
  have hhead := (List.pairwise_cons.mp ho).1
  have hclaim : ClaimOk s c hello existing := h.phase c _ hc
  refine ⟨⟨h.tail hq, ⟨hclaim.holds, hclaim.found, hclaim.fresh⟩, fun d hd => ?_⟩, ?_⟩
  · exact (hhead _ hd c rfl).1 d rfl
  · intro sessionId a ha
    exact (hhead _ ha c rfl).2 sessionId a rfl terminated hello identity existing hc

/-- The handshake ends without a connection. -/
theorem Claimed.leave (h : Claimed scope o s c hello existing) {world : World τ} (call : Call)
    (establishing : Option ℕ) (hlive : ∀ id, (s.world.live id).isSome → (world.live id).isSome)
    (hc : PhaseOk { s with establishing } c call.phase) :
    ({ s.setCall c call with world, establishing } : HandshakeState τ).Ok scope o where
  phase d call' hd := by
    rcases calls_setCall hd with ⟨rfl, rfl⟩ | ⟨hne, hd⟩
    · exact phaseOk_congr hc rfl rfl (fun _ => rfl) fun _ _ _ => ⟨hlive _, fun _ => id⟩
    · exact phaseOk_congr (h.others hd hne establishing) rfl rfl (fun _ => rfl)
        fun _ _ _ => ⟨hlive _, fun _ => id⟩
  queued d hd := absurd hd (h.alone d)
  ordered := pairwise_before h.alone

/-- A session that was opened for a call that was given up is no open connection's. -/
theorem Claimed.foreign (h : Claimed scope o s c hello existing)
    (hre : Reopens scope o s.world hello sessionId) (hu : ∀ r ∈ s.connections,
      ∀ connection ∈ s.openConnection r,
        boundSession scope o s.world hello ≠ some connection.sessionId)
    {d : ℕ} {terminated : Bool} {connection : ServerRunnerConnection}
    (hd : s.calls d = some ⟨terminated, .connected connection⟩)
    (hdisp : connection.disposed = false) : connection.sessionId ≠ sessionId := by
  rintro rfl
  have hreg := (h.ok.phase d _ hd hdisp).registered
  rcases hre with hnone | hbound
  · rw [h.claim.fresh hnone] at hreg
    cases hreg
  · exact hu d hreg connection (h.ok.openConnection_of_connected hd hdisp) hbound

theorem live_openSession (scope : τ) (hello : RunnerHello) (identity : AuthenticatedRunnerContext)
    {w : World τ} :
    Opened scope o hello w
      ((CoreRunnerProtocolApplication.openSession o hello identity).run
        (handler o.platform O scope) w).1
      ((CoreRunnerProtocolApplication.openSession o hello identity).run
        (handler o.platform O scope) w).2 :=
  ends_register hello identity

theorem ok_openSession (h : Claimed scope o s c hello existing) {terminated : Bool}
    (hbehind : ∀ sessionId a, .closeSession sessionId a ∈ s.queue →
      ¬ Reopens scope o s.world hello sessionId)
    {identity : AuthenticatedRunnerContext}
    (hc : s.calls c = some ⟨terminated, .opening hello identity existing⟩)
    (hu : terminated → ∀ r ∈ s.connections, ∀ connection ∈ s.openConnection r,
      boundSession scope o s.world hello ≠ some connection.sessionId) :
    (s.runTask O scope o (.openSession c)).Ok scope o := by
  unfold HandshakeState.runTask
  dsimp only
  rw [hc]
  dsimp only
  have hopen := live_openSession (O := O) (o := o) (w := s.world) scope hello identity
  split
  · next e world hr =>
    rw [hr] at hopen
    refine h.leave _ _ (fun id hl => ?_) trivial
    have hsame : world.live = s.world.live := hopen
    rw [hsame]
    exact hl
  · next welcome world hr =>
    rw [hr] at hopen
    obtain ⟨hre, record, hlive⟩ := hopen
    split
    · next ht =>
      have hmono : ∀ id, (s.world.live id).isSome → (world.live id).isSome := by
        intro id hl
        rw [hlive]
        rcases eq_or_ne id welcome.sessionId with rfl | hne
        · rw [Function.update_self]
          rfl
        · rw [Function.update_of_ne hne]
          exact hl
      have hleft := h.leave ⟨terminated, .closing⟩ s.establishing hmono h.claim.holds
      refine hleft.push ?_ (by rintro _ ⟨⟩) ?_
      · intro d t connection hd hdisp a he
        obtain ⟨hid, -⟩ := Task.closeSession.inj he
        rcases calls_setCall hd with ⟨rfl, hcall⟩ | ⟨-, hd⟩
        · cases hcall
        · exact h.foreign hre (hu ht) hd hdisp hid.symm
      · rintro task htask d rfl
        exact absurd htask (h.alone d)
    · exact h.register (fun a ha => hbehind _ a ha hre) hlive

theorem ok_closeSession (h : s.Ok scope o) {awaitedBy : Option ℕ}
    (hq : ∀ d terminated connection, s.calls d = some ⟨terminated, .connected connection⟩ →
      connection.disposed = false → connection.sessionId ≠ sessionId) :
    (s.runTask O scope o (.closeSession sessionId awaitedBy)).Ok scope o := by
  have hclosed := closed_closeSession (P := o.platform) (O := O) (w := s.world) scope sessionId
  unfold Program.Ends at hclosed
  have hworld : ({ s with world := ((CoreRunnerProtocolApplication.closeSession sessionId).run
      (handler o.platform O scope) s.world).2 } : HandshakeState τ).Ok scope o := by
    refine ⟨fun d call hd => ?_, h.queued, ?_⟩
    · refine phaseOk_congr (h.phase d call hd) rfl rfl (fun _ => rfl)
        fun connection hp hdisp => ⟨fun hl => ?_, fun _ => id⟩
      have hcall : s.calls d = some ⟨call.terminated, .connected connection⟩ := by
        rw [← hp]
        exact hd
      change (World.live (Program.run _ (RunnerSessionService.closeSession sessionId) _).2
        connection.sessionId).isSome
      rw [hclosed.1, Function.update_of_ne (hq d _ connection hcall hdisp)]
      exact hl
    · refine h.ordered.imp fun hb => ?_
      exact before_congr hb hclosed.2 fun _ t _ _ _ _ hc => ⟨t, hc⟩
  unfold HandshakeState.runTask
  dsimp only
  split
  · exact hworld
  next c =>
  split
  · next terminated hc =>
    have hclaim : s.establishing = some c := h.phase c _ hc
    have hset := hworld.setCall c ⟨terminated, .ended⟩ trivial
      (hworld.not_queued hc (by rintro _ _ _ ⟨⟩))
    refine ⟨fun d call hd => ?_, hset.queued, ?_⟩
    · rcases calls_setCall hd with ⟨rfl, rfl⟩ | ⟨hne, hd'⟩
      · trivial
      · have hphase := hset.phase d call hd
        refine phaseOk_congr hphase rfl rfl (fun hp => ?_) fun _ _ _ => ⟨id, fun _ => id⟩
        exact absurd (Option.some.inj ((hphase.holds hp).symm.trans hclaim)) hne
    · refine hset.ordered.imp fun hb => ?_
      exact before_congr hb rfl fun _ t _ _ _ _ hcall => ⟨t, hcall⟩
  · exact hworld

theorem ok_runNext (h : s.Ok scope o) (hu : Undisturbed scope o s .runNext) :
    (s.step O scope o .runNext).Ok scope o := by
  unfold HandshakeState.step
  dsimp only
  split
  · exact h
  next task queue hq =>
  have htail := h.tail hq
  cases task with
  | openSession c =>
    obtain ⟨terminated, hello, identity, existing, hc⟩ :=
      h.queued c (by rw [hq]; exact List.mem_cons_self)
    obtain ⟨hclaimed, hbehind⟩ := claimed_of_head h hq hc
    refine ok_openSession hclaimed hbehind hc fun ht r hr connection hconn => ?_
    have hres := hu (.openSession c) (by rw [hq]; rfl)
      (by
        unfold HandshakeState.abandoned
        dsimp only
        rw [hc]
        exact ht) r hr connection hconn
    unfold HandshakeState.resumes at hres
    dsimp only at hres
    rw [hc] at hres
    exact hres
  | closeSession sessionId awaitedBy =>
    refine ok_closeSession htail fun d t connection hd hdisp he => ?_
    refine (h.phase d _ hd hdisp).kept awaitedBy ?_
    rw [hq, he]
    exact List.mem_cons_self
  | other call keeps => exact htail.sameSessions (sameSessions_call keeps)

theorem ok_claim (h : s.Ok scope o) {terminated : Bool} {identity : AuthenticatedRunnerContext}
    (hc : s.calls c = some ⟨terminated, .authenticating hello identity⟩) :
    (s.claim c terminated hello identity).Ok scope o := by
  have hq : .openSession c ∉ s.queue := h.not_queued hc (by rintro _ _ _ ⟨⟩)
  unfold HandshakeState.claim
  split
  · exact h.setCall _ _ trivial hq
  next hclaim =>
  obtain ⟨-, hfree, hfound⟩ := not_or.mp hclaim |>.imp id not_or.mp
  have hnone : s.establishing = none := Option.not_isSome_iff_eq_none.mp hfree
  refine ⟨fun d call hd => ?_, fun d hd => ?_, ?_⟩
  · rcases calls_setCall hd with ⟨rfl, rfl⟩ | ⟨-, hd⟩
    · refine ⟨rfl, fun r hr => hr, fun ht => ?_⟩
      by_contra hsome
      exact hfound ⟨Option.isSome_iff_ne_none.mpr hsome, ht⟩
    · have hphase := h.phase d call hd
      refine phaseOk_congr hphase rfl rfl (fun hp => ?_) fun _ _ _ => ⟨id, fun _ => id⟩
      have hheld := hphase.holds hp
      rw [hnone] at hheld
      cases hheld
  · obtain ⟨t, hello', identity', existing', hcall⟩ := h.queued d hd
    have hheld : s.establishing = some d := (h.phase d _ hcall).holds rfl
    rw [hnone] at hheld
    cases hheld
  · refine h.ordered.imp_of_mem fun {t u} ht _ hb => ?_
    refine before_congr hb rfl fun d t' hello' identity' existing' htask hd => ?_
    rcases calls_setCall hd with ⟨rfl, he⟩ | ⟨-, hd⟩
    · cases he
    · exact ⟨t', hd⟩

theorem ok_resolved (h : s.Ok scope o) {terminated : Bool} {identity : AuthenticatedRunnerContext}
    (hc : s.calls c = some ⟨terminated, .resolving hello identity existing⟩) (found : Bool) :
    (s.step O scope o (.resolved c found)).Ok scope o := by
  have hq : .openSession c ∉ s.queue := h.not_queued hc (by rintro _ _ _ ⟨⟩)
  have hclaim : ClaimOk s c hello existing := h.phase c _ hc
  have halone : ∀ d, .openSession d ∉ s.queue := by
    intro d hd
    obtain ⟨t, hello', identity', existing', hcall⟩ := h.queued d hd
    have hheld : s.establishing = some d := (h.phase d _ hcall).holds rfl
    have hdc : d = c := Option.some.inj (hheld.symm.trans hclaim.holds)
    exact hq (hdc ▸ hd)
  unfold HandshakeState.step
  dsimp only
  rw [hc]
  dsimp only
  split
  · have hset : (s.setCall c ⟨terminated, .opening hello identity existing⟩).Ok scope o :=
      h.setCall _ _ hclaim hq
    refine hset.push (by rintro _ _ _ _ _ _ ⟨⟩) ?_ ?_
    · rintro d ⟨⟩
      exact ⟨terminated, hello, identity, existing, Function.update_self _ _ _⟩
    · rintro task htask d rfl
      exact absurd htask (halone d)
  · exact (Claimed.mk h hclaim halone).leave _ _ (fun _ hl => hl) trivial

/-! ## Whole runs -/

theorem ok_handshake_step (h : s.Ok scope o) {e : HandshakeEvent}
    (he : Undisturbed scope o s e) : (s.step O scope o e).Ok scope o := by
  cases e with
  | hello c hello identity =>
    unfold HandshakeState.step
    dsimp only
    split
    · exact h
    · next hnone =>
      refine h.setCall _ _ trivial fun hq => ?_
      obtain ⟨t, hello', identity', existing, hcall⟩ := h.queued c hq
      rw [hnone] at hcall
      cases hcall
  | authenticated c admitted =>
    unfold HandshakeState.step
    dsimp only
    split
    · next terminated hello identity hc =>
      split
      · exact ok_claim h hc
      · exact h.setCall _ _ trivial (h.not_queued hc (by rintro _ _ _ ⟨⟩))
    · exact h
  | resolved c found =>
    cases hc : s.calls c with
    | none => simpa [HandshakeState.step, hc] using h
    | some call =>
      obtain ⟨terminated, phase⟩ := call
      cases phase with
      | resolving hello identity existing => exact ok_resolved h hc found
      | _ => simpa [HandshakeState.step, hc] using h
  | runNext => exact ok_runNext h he
  | other call =>
    unfold HandshakeState.step
    dsimp only
    split
    · refine h.push (by rintro _ _ _ _ _ _ ⟨⟩) (by rintro _ ⟨⟩) ?_
      rintro task - c rfl
      exact ⟨by rintro _ ⟨⟩, by rintro _ _ ⟨⟩⟩
    · exact h
  | overflow c =>
    unfold HandshakeState.step
    dsimp only
    split
    · exact (ok_dispose h he).1
    · next call hc => exact h.terminate hc
    · exact h
  | streamEnd c => exact ok_teardown h he
  | dispose c => exact (ok_dispose h he).1

/-- In every interleaving in which no connection closes its session while that session
waits to be resumed, and no call that was given up resumes the session of an open
connection, the session of the current connection is live. -/
theorem current_session_live (O : Oracle) (scope : τ) (o : CoreOptions)
    (events : List HandshakeEvent)
    (h : Meets (HandshakeState.step O scope o) (Undisturbed scope o) .initial events) :
    CurrentSessionLive (HandshakeState.after O scope o events) := by
  have hok : (HandshakeState.after O scope o events).Ok scope o :=
    h.foldl (I := HandshakeState.Ok scope o) (fun s e he hs => ok_handshake_step hs he)
      ok_handshake_initial
  exact hok.currentSessionLive

end Property

/-! ## A session that is closed under its connection -/

def sampleIdentity : AuthenticatedRunnerContext := ⟨"runner", "fingerprint", .local⟩

/-- A handshake up to the point where its session waits to be opened. -/
def handshake (c : ℕ) (resumeToken : Option String) : List HandshakeEvent :=
  [.hello c { sampleHello "runner" with resumeToken } sampleIdentity, .authenticated c true,
    .resolved c true]

/-- A Runner connects, comes back with its token, and the old stream ends. -/
def resumeAndEnd : List HandshakeEvent :=
  handshake 0 none ++ ([.runNext] : List HandshakeEvent) ++ handshake 1 (some "id1") ++
    ([.runNext, .streamEnd 0, .runNext] : List HandshakeEvent)

theorem current_session_live_resumed :
    Meets (HandshakeState.step numberedOracle () sampleCore) (Undisturbed () sampleCore)
      .initial resumeAndEnd ∧
    (HandshakeState.after numberedOracle () sampleCore resumeAndEnd).connections = some 1 ∧
    CurrentSessionLive (HandshakeState.after numberedOracle () sampleCore resumeAndEnd) := by
  have h : Meets (HandshakeState.step numberedOracle () sampleCore) (Undisturbed () sampleCore)
      .initial resumeAndEnd := by decide
  exact ⟨h, by decide, current_session_live _ () _ _ h⟩

/-- The old stream ends while the resumed session still waits to be opened. -/
def endBeforeResume : List HandshakeEvent :=
  handshake 0 none ++ ([.runNext] : List HandshakeEvent) ++ handshake 1 (some "id1") ++
    ([.streamEnd 0, .runNext, .runNext] : List HandshakeEvent)

/-- The new stream ends before its session is opened, and the old connection stays. -/
def giveUpResume : List HandshakeEvent :=
  handshake 0 none ++ ([.runNext] : List HandshakeEvent) ++ handshake 1 (some "id1") ++
    ([.streamEnd 1, .runNext, .runNext] : List HandshakeEvent)

/-- In both cases the session of the current connection is closed under it. -/
theorem current_session_closed :
    ¬ CurrentSessionLive (HandshakeState.after numberedOracle () sampleCore endBeforeResume) ∧
    ¬ CurrentSessionLive (HandshakeState.after numberedOracle () sampleCore giveUpResume) := by
  decide

end Qualigence.Grpc
