import Qualigence.Foundation.Calls

/-! # The process supervisor

A supervisor starts the processes of a topology in their order and stops them in the reverse order,
under a lock of the data directory. Its calls of the units and of the lock may be answered in any
way, also in view of the calls before.
-/

namespace Qualigence.Launcher

open Foundation

/-! ## Health reports -/

inductive HealthCheckStatus where
  | pass
  | warn
  | fail
  deriving DecidableEq

inductive HealthStatus where
  | healthy
  | degraded
  | unhealthy
  deriving DecidableEq

structure HealthCheck where
  name : String
  status : HealthCheckStatus
  code : Option String
  safeMessage : String
  deriving DecidableEq

structure HealthReport where
  status : HealthStatus
  version : String
  checks : List HealthCheck
  deriving DecidableEq

def aggregateHealthStatus (checks : List HealthCheck) : HealthStatus :=
  if checks.any fun check => check.status = .fail then .unhealthy
  else if checks.any fun check => check.status = .warn then .degraded
  else .healthy

/-! ## Calls of the units and of the lock -/

/-- An error with its code, of the launcher or of what it calls. -/
structure LauncherError where
  code : String
  message : String
  deriving DecidableEq

/-- A unit is known by its place among the units of the topology. -/
inductive SupervisorOp where
  | acquire
  | release
  | start (place : ℕ)
  | stop (place : ℕ)
  | readinessChecks (place : ℕ)

def SupervisorOp.Reply : SupervisorOp → Type
  | acquire | release | start _ | stop _ => Except LauncherError Unit
  | readinessChecks _ => Except LauncherError (List HealthCheck)

abbrev supervisorSignature : Signature := ⟨SupervisorOp, SupervisorOp.Reply⟩

abbrev Supervising (α : Type) := Program supervisorSignature Empty α

def call (op : SupervisorOp) : Supervising op.Reply := Program.perform (S := supervisorSignature) op

/-! ## The supervisor -/

/-- The options of a supervisor: the names of its units, and whether it has been given a lock. -/
structure ProcessSupervisorOptions where
  version : String
  units : List String
  lock : Bool

/-- The fields of a supervisor. -/
structure ProcessSupervisor where
  recorded : List String
  running : List ℕ
  locked : Bool
  deriving DecidableEq

namespace ProcessSupervisor

def initial : ProcessSupervisor := ⟨[], [], false⟩

variable (options : ProcessSupervisorOptions)

/-- A unit's lifecycle event. -/
def record (s : ProcessSupervisor) (place : ℕ) (event : String) : ProcessSupervisor :=
  { s with recorded := s.recorded ++ [(options.units[place]?).getD "" ++ ":" ++ event] }

def acquireLock (s : ProcessSupervisor) :
    Supervising (Except LauncherError Unit × ProcessSupervisor) :=
  if options.lock then do
    let reply : Except LauncherError Unit ← call .acquire
    match reply with
    | .ok () => return (.ok (), { s with locked := true })
    | .error e => return (.error e, s)
  else return (.ok (), s)

def releaseLock (s : ProcessSupervisor) :
    Supervising (Except LauncherError Unit × ProcessSupervisor) :=
  if options.lock ∧ s.locked then do
    let reply : Except LauncherError Unit ← call .release
    match reply with
    | .ok () => return (.ok (), { s with locked := false })
    | .error e => return (.error e, s)
  else return (.ok (), s)

/-- The loop of `start`. -/
def startUnits : List ℕ → ProcessSupervisor →
    Supervising (Except LauncherError Unit × ProcessSupervisor)
  | [], s => return (.ok (), s)
  | place :: rest, s => do
    let s := s.record options place "start"
    let reply : Except LauncherError Unit ← call (.start place)
    match reply with
    | .ok () =>
      startUnits rest ({ s with running := s.running ++ [place] }.record options place "ready")
    | .error e => return (.error e, s)

/-- The loop of `rollback`, over the running units from the last one on. -/
def stopUnits : List ℕ → Option LauncherError → List ℕ → ProcessSupervisor →
    Supervising (Option LauncherError × List ℕ × ProcessSupervisor)
  | [], failure, unreaped, s => return (failure, unreaped, s)
  | place :: rest, failure, unreaped, s => do
    let s := { s with running := rest.reverse }.record options place "stop"
    let reply : Except LauncherError Unit ← call (.stop place)
    match reply with
    | .ok () => stopUnits rest failure unreaped s
    | .error e => stopUnits rest (some (failure.getD e)) (place :: unreaped) s

def rollback (s : ProcessSupervisor) :
    Supervising (Except LauncherError Unit × ProcessSupervisor) := do
  let (failure, unreaped, s) ← stopUnits options s.running.reverse none [] s
  let s := { s with running := s.running ++ unreaped }
  match failure with
  | none => return (.ok (), s)
  | some e => return (.error e, s)

/-- The loop of `status`. -/
def readiness : List ℕ → List HealthCheck → Supervising (Except LauncherError (List HealthCheck))
  | [], checks => return .ok checks
  | place :: rest, checks => do
    let reply : Except LauncherError (List HealthCheck) ← call (.readinessChecks place)
    match reply with
    | .ok more => readiness rest (checks ++ more)
    | .error e => return .error e

/-- The places of the units, in the order in which they are started. -/
def places : List ℕ := List.range options.units.length

def status : Supervising (Except LauncherError HealthReport) := do
  let checks ← readiness (places options) []
  return checks.map fun checks => ⟨aggregateHealthStatus checks, options.version, checks⟩

def alreadyRunning : LauncherError :=
  ⟨"AlreadyRunning", "the launcher topology is already running"⟩

/-- What `start` does when a unit could not be started. An error of the lock takes the place of the
error of the unit. -/
def undoStart (e : LauncherError) (s : ProcessSupervisor) :
    Supervising (Except LauncherError HealthReport × ProcessSupervisor) := do
  let (_, s) ← rollback options s
  let (released, s) ← releaseLock options s
  match released with
  | .ok () => return (.error e, s)
  | .error e' => return (.error e', s)

def start (s : ProcessSupervisor) :
    Supervising (Except LauncherError HealthReport × ProcessSupervisor) :=
  if s.running ≠ [] then return (.error alreadyRunning, s)
  else do
    let (acquired, s) ← acquireLock options s
    match acquired with
    | .error e => return (.error e, s)
    | .ok () =>
      let (started, s) ← startUnits options (places options) s
      match started with
      | .error e => undoStart options e s
      | .ok () =>
        let report ← status options
        return (report, s)

def stop (s : ProcessSupervisor) :
    Supervising (Except LauncherError Unit × ProcessSupervisor) := do
  let (stopped, s) ← rollback options s
  let (released, s) ← releaseLock options s
  match released with
  | .ok () => return (stopped, s)
  | .error e => return (.error e, s)

end ProcessSupervisor

/-! ## Runs -/

/-- A call of the supervisor. -/
inductive SupervisorRequest where
  | start
  | stop
  deriving DecidableEq

abbrev SupervisorLog := List (Call supervisorSignature Empty)

/-- How the units and the lock answer a call, in view of the calls before it. -/
abbrev Behaviour := SupervisorLog → (op : SupervisorOp) → op.Reply

def Behaviour.oracle (b : Behaviour) : Oracle supervisorSignature Empty := fun log op =>
  .ok (b log op)

/-- The supervisor after a call. -/
def SupervisorRequest.body (options : ProcessSupervisorOptions) (s : ProcessSupervisor) :
    SupervisorRequest → Supervising ProcessSupervisor
  | start => do
    let (_, s) ← s.start options
    return s
  | stop => do
    let (_, s) ← s.stop options
    return s

/-- A supervisor with the calls it has made of its units and of its lock. -/
structure Supervised where
  supervisor : ProcessSupervisor
  log : SupervisorLog

def Supervised.perform (options : ProcessSupervisorOptions) (b : Behaviour) (x : Supervised)
    (request : SupervisorRequest) : Supervised :=
  let out := Program.run (Program.Oracle.handler b.oracle) (request.body options x.supervisor) x.log
  ⟨Program.value out.1, out.2⟩

/-- A new supervisor after a sequence of calls, each awaited. -/
def supervised (options : ProcessSupervisorOptions) (b : Behaviour)
    (requests : List SupervisorRequest) : Supervised :=
  requests.foldl (Supervised.perform options b) ⟨.initial, []⟩

end Qualigence.Launcher
