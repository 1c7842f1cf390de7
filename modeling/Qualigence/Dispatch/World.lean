import Qualigence.Dispatch.Loop

/-! # The world of dispatches

The cycles of the loops, the frames of the Runners and the calls of the Runner protocol take
turns on the stores and the memory of the server. Connections come and go, the services of
the missions and the starts go on beside them, and the process can stop at any point.
-/

namespace Qualigence.Dispatch

open Foundation Protocol
open Core (CoreOptions Oracle Fault AppCall)
open Mission (PlanningPlatform MissionDb Scheduling StartWorld StartEvent MissionEvent transact)

/-! ## State -/

/-- The promise of an offer. -/
inductive Deferred where
  | pending
  | resolved (lease : ExecutionJobLease)
  | rejected (error : DispatchError)

structure Connection where
  sessionId : String
  runner : AuthenticatedRunner
  generation : ℕ
  disposed : Bool
  pendingOffers : List (String × ℕ)

/-- The stores and the memory of the server. Connections, loops and promises go by number. -/
structure DispatchState (τ : Type) where
  core : Core.World τ
  missions : StartWorld
  connections : ℕ → Option Connection
  directory : String → Option ℕ
  generations : String → ℕ
  deferreds : List Deferred
  backoff : ℕ → String → Option BackoffState
  aborted : Bool

/-- The oracle of Core, and the parsed instants that the clock of the loop tells. -/
structure ServerOracle extends Oracle where
  clock : ℕ → Option Int

namespace DispatchState

variable {τ α : Type}

def initial : DispatchState τ where
  core := .initial
  missions := .initial
  connections := fun _ => none
  directory := fun _ => none
  generations := fun _ => 0
  deferreds := []
  backoff := fun _ _ => none
  aborted := false

def tick (s : DispatchState τ) : DispatchState τ := { s with core := s.core.tick }

def setConnection (s : DispatchState τ) (n : ℕ) (c : Connection) : DispatchState τ :=
  { s with connections := Function.update s.connections n (some c) }

def writeBackoff (s : DispatchState τ) (loop : ℕ) (attemptId : String)
    (state : Option BackoffState) : DispatchState τ :=
  let written := Function.update (s.backoff loop) attemptId state
  { s with backoff := Function.update s.backoff loop written }

/-- Settle a promise; one that is settled stays as it is. -/
def settle (s : DispatchState τ) (d : ℕ) (outcome : Deferred) : DispatchState τ :=
  match s.deferreds[d]? with
  | some .pending => { s with deferreds := s.deferreds.set d outcome }
  | _ => s

/-- The connection is the one of its Runner. -/
def isCurrent (s : DispatchState τ) (n : ℕ) (c : Connection) : Bool :=
  s.directory c.runner.runnerId = some n ∧ s.generations c.runner.runnerId = c.generation

/-- A step of the mission store, which can fail before or after it took effect. -/
def onMissions (O : Oracle) (s : DispatchState τ)
    (r : Except DispatchError α) (missions : StartWorld) :
    Except DispatchError α × DispatchState τ :=
  match O.fault s.core.draws with
  | .none => (r, { s.tick with missions })
  | .before => (.error (.core .storeUnavailable), s.tick)
  | .after => (.error (.core .storeUnavailable), { s.tick with missions })

/-- A transaction of the mission store, which is refused while a start has one open. -/
def transaction (O : Oracle) (s : DispatchState τ) (body : MissionDb → Scheduling (α × MissionDb)) :
    Except DispatchError α × DispatchState τ :=
  if s.missions.inProgress.isSome then
    s.onMissions O
      (.error (.mission (.error "cannot start a transaction within a transaction"))) s.missions
  else
    let r := transact body s.missions.db
    s.onMissions O (r.1.mapError .mission) { s.missions with db := r.2 }

end DispatchState

section Handler

variable {τ : Type} [DecidableEq τ] (P : PlanningPlatform) (O : ServerOracle) (scope : τ)
  (o : CoreOptions)

open DispatchState in
/-- How the world answers the operations. -/
def handler : Handler dispatchSignature DispatchError (DispatchState τ)
  | .core op, s =>
    let r := Core.handler o.platform O.toOracle scope op s.core
    (.ok r.1, { s with core := r.2 })
  | .pendingDispatches limit, s =>
    s.onMissions O.toOracle
      ((Mission.pendingDispatches P.toPlatform limit s.missions.visible).mapError .mission)
      s.missions
  | .markDispatchAccepted attemptId receipt version, s =>
    s.transaction O.toOracle (Mission.markDispatchAccepted P.toPlatform attemptId receipt version)
  | .markDispatchBlocked attemptId version, s =>
    s.transaction O.toOracle (Mission.markDispatchBlocked P.toPlatform attemptId version)
  | .connectionFor runnerId, s =>
    (.ok do
      let n ← s.directory runnerId
      let c ← s.connections n
      return ⟨n, c.sessionId, c.runner⟩, s)
  | .assertCurrent n message, s => match s.connections n with
    | some c =>
      if c.disposed ∨ ¬ s.isCurrent n c then
        (.error (.runnerProtocol .sessionClosed message none), s)
      else (.ok (), s)
    | none => (.error (.runnerProtocol .sessionClosed message none), s)
  | .registerOffer n offerId, s => match s.connections n with
    | some c => match c.pendingOffers.lookup offerId with
      | some d => (.ok d, s)
      | none =>
        let d := s.deferreds.length
        let registered := s.setConnection n { c with
          pendingOffers := c.pendingOffers ++ [(offerId, d)] }
        (.ok d, { registered with deferreds := s.deferreds ++ [.pending] })
    | none => (.error .transport, s)
  | .settled d, s => match s.deferreds[d]? with
    | some (.resolved lease) => (.ok lease, s)
    | some (.rejected error) => (.error error, s)
    -- a turn is not taken here while the promise is pending
    | _ => (.error .transport, s)
  | .admitFrame n, s => match s.connections n with
    | some c =>
      if c.disposed then
        (.error (.runnerProtocol .sessionClosed "runner connection is closed" none), s)
      else if s.generations c.runner.runnerId = c.generation then (.ok (some c.sessionId), s)
      else (.ok none, s)
    | none => (.ok none, s)
  | .resolveOffer n offerId lease, s => match s.connections n with
    | some c => match c.pendingOffers.lookup offerId with
      | some d =>
        let removed := s.setConnection n { c with
          pendingOffers := c.pendingOffers.filter fun p => p.1 ≠ offerId }
        (.ok (), removed.settle d (.resolved lease))
      | none => (.ok (), s)
    | none => (.ok (), s)
  | .aborted, s => (.ok s.aborted, s)
  | .nowMs, s => match O.clock s.core.draws with
    | some ms => (.ok ms, s.tick)
    | none => (.error .clockNotIso, s.tick)
  | .backoff loop attemptId, s => (.ok (s.backoff loop attemptId), s)
  | .setBackoff loop attemptId state, s => (.ok (), s.writeBackoff loop attemptId (some state))
  | .deleteBackoff loop attemptId, s => (.ok (), s.writeBackoff loop attemptId none)

end Handler

/-! ## Events -/

/-- What a program of the server is started for. -/
inductive Request where
  | runOnce (loop depth : ℕ)
  | acceptOffer (connection : ℕ) (offerId : String)
  | call (call : AppCall)

/-- The program of a request; a cycle has a result. -/
def Request.body (o : CoreOptions) (loops : ℕ → MissionDispatchLoopOptions) :
    Request → Dispatching (Option MissionDispatchCycleResult)
  | .runOnce loop depth => some <$> MissionDispatchLoop.runOnce o (loops loop) loop depth
  | .acceptOffer connection offerId => do
    ServerRunnerConnection.acceptOffer o connection offerId
    return none
  | .call c => do
    let _ ← ofService (c.body o)
    return none

def isMark : StartEvent → Bool
  | .service (.markAccepted ..) | .service (.markBlocked ..) => true
  | _ => false

/-- The turns of the mission services and the starts, which mark no dispatches. -/
abbrev MissionTurn := { e : StartEvent // isMark e = false }

inductive DispatchEvent where
  | spawn (request : Request)
  | advance (thread : ℕ)
  | connect (connection : ℕ) (sessionId : String) (runner : AuthenticatedRunner)
  | release (connection : ℕ)
  | dispose (connection : ℕ) (reason : DispatchError)
  | missions (turn : MissionTurn)
  | abort
  | restart

abbrev DispatchWorld (τ : Type) :=
  Pool dispatchSignature DispatchError (Option MissionDispatchCycleResult) (DispatchState τ) Request

namespace DispatchState

variable {τ : Type}

/-- A connection is established; the directory has it in place of an older one. -/
def connect (n : ℕ) (sessionId : String) (runner : AuthenticatedRunner) (s : DispatchState τ) :
    DispatchState τ :=
  match s.connections n with
  | some _ => s
  | none =>
    let generation := s.generations runner.runnerId + 1
    { s.setConnection n ⟨sessionId, runner, generation, false, []⟩ with
      directory := Function.update s.directory runner.runnerId (some n)
      generations := Function.update s.generations runner.runnerId generation }

def release (n : ℕ) (s : DispatchState τ) : DispatchState τ :=
  { s with directory := fun r => if s.directory r = some n then none else s.directory r }

/-- Every promise of the connection is rejected. -/
def dispose (n : ℕ) (reason : DispatchError) (s : DispatchState τ) : DispatchState τ :=
  match s.connections n with
  | none => s
  | some c =>
    if c.disposed then s
    else
      c.pendingOffers.foldl (fun t p => t.settle p.2 (.rejected reason))
        (s.setConnection n { c with disposed := true, pendingOffers := [] })

/-- The process starts again: the stores stay, the memory is empty. -/
def restart (P : PlanningPlatform) (s : DispatchState τ) : DispatchState τ :=
  { (initial : DispatchState τ) with
    core := s.core.restart, missions := s.missions.step P .restart }

end DispatchState

namespace DispatchWorld

variable {τ : Type} [DecidableEq τ] (P : PlanningPlatform) (O : ServerOracle) (scope : τ)
  (o : CoreOptions) (loops : ℕ → MissionDispatchLoopOptions)

def initial : DispatchWorld τ := ⟨.initial, []⟩

/-- The program waits for a promise that is not settled. -/
def waits (w : DispatchWorld τ) (thread : ℕ) : Bool :=
  match w.threads[thread]? with
  | some (_, .call (.settled d) _) => match w.shared.deferreds[d]? with
    | some .pending => true
    | _ => false
  | _ => false

def onState (w : DispatchWorld τ) (f : DispatchState τ → DispatchState τ) : DispatchWorld τ :=
  { w with shared := f w.shared }

def step (w : DispatchWorld τ) : DispatchEvent → DispatchWorld τ
  | .spawn request => Pool.step (handler P O scope o) (Request.body o loops) w (.spawn request)
  | .advance thread =>
    if w.waits thread then w
    else Pool.step (handler P O scope o) (Request.body o loops) w (.advance thread)
  | .connect n sessionId runner => w.onState (.connect n sessionId runner)
  | .release n => w.onState (.release n)
  | .dispose n reason => w.onState (.dispose n reason)
  | .missions turn => w.onState fun s => { s with missions := s.missions.step P turn.val }
  | .abort => w.onState fun s => { s with aborted := true }
  | .restart => ⟨w.shared.restart P, []⟩

/-- The world after a history of events. -/
def after (events : List DispatchEvent) : DispatchWorld τ :=
  events.foldl (step P O scope o loops) initial

end DispatchWorld

end Qualigence.Dispatch
