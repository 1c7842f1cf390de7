import Qualigence.Launcher.Supervisor
import Mathlib.Data.Int.Notation

/-! # Stop requests

A caller publishes a stop request as a file that the supervisor of the topology polls for. Callers
and the supervisor take the file from its path with a rename, and a caller links a request back that
it has taken. All of them take turns, one file operation at a time.
-/

namespace Qualigence.Launcher

/-- What identifies a running topology. -/
structure Topology where
  supervisorPid : ℕ
  corePid : ℕ
  runnerPid : ℕ
  startedAt : String
  deriving DecidableEq

/-- A stop request; its time is in milliseconds. -/
structure LocalStopRequest where
  topology : Topology
  requestedAt : ℤ
  deriving DecidableEq

/-- The text of a file at the path of the stop request. -/
inductive StopFile where
  | request (marker : LocalStopRequest)
  | malformed
  deriving DecidableEq

def parseStopRequest : StopFile → Option LocalStopRequest
  | .request marker => some marker
  | .malformed => none

def sameTopology (left right : Topology) : Bool :=
  left.supervisorPid = right.supervisorPid ∧ left.corePid = right.corePid ∧
    left.runnerPid = right.runnerPid ∧ left.startedAt = right.startedAt

def stopRequestMatchesTopology (marker : LocalStopRequest) (topology : Topology) (now : ℤ)
    (maximumAgeMs : ℕ) : Bool :=
  marker.topology.supervisorPid = topology.supervisorPid ∧
    marker.topology.corePid = topology.corePid ∧
    marker.topology.runnerPid = topology.runnerPid ∧
    marker.topology.startedAt = topology.startedAt ∧
    marker.requestedAt ≤ now ∧ now - marker.requestedAt ≤ maximumAgeMs

/-- The topology that runs, which is recorded in the runtime state, and how old a stop request of
it may be. -/
structure Running where
  topology : Topology
  maximumAgeMs : ℕ

def Running.readRuntimeState (c : Running) : Option Topology := some c.topology

/-- How far a caller is in `publishStopRequest`. Its temporary file and the files it has claimed are
its own. -/
inductive PublishPhase where
  | linking
  | claiming
  | reading (claimed : StopFile)
  | puttingBack (existing : LocalStopRequest)
  | removing (existing : Option LocalStopRequest)
  | rereading
  | leaving (thrown : Option LauncherError)
  | returned (thrown : Option LauncherError)
  deriving DecidableEq

structure Publisher where
  marker : LocalStopRequest
  phase : PublishPhase
  deriving DecidableEq

/-- How far the supervisor is in `claimMatchingStopRequest`, called at `now`. It polls until a
request matches. -/
inductive PollPhase where
  | idle
  | claiming (now : ℤ)
  | reading (now : ℤ) (claim : StopFile)
  | checking (now : ℤ) (marker : LocalStopRequest)
  | removing (result : Bool)
  | stopping
  deriving DecidableEq

/-- The file at the path of the stop request, with the callers and the supervisor. -/
structure StopWorld where
  now : ℤ
  canonical : Option StopFile
  publishers : List Publisher
  poll : PollPhase
  deriving DecidableEq

inductive StopStep where
  | clock (now : ℤ)
  | publish (marker : LocalStopRequest)
  | advance (i : ℕ)
  | startPoll
  | supervise
  deriving DecidableEq

namespace StopWorld

/-- A directory in which a file may have been left. -/
def initial (now : ℤ) (canonical : Option StopFile) : StopWorld := ⟨now, canonical, [], .idle⟩

def setPhase (w : StopWorld) (i : ℕ) (p : Publisher) (phase : PublishPhase) : StopWorld :=
  { w with publishers := w.publishers.set i { p with phase } }

def differentTopology : LauncherError :=
  ⟨"StopRequestInvalid", "a stop request for a different topology already exists"⟩

/-- Where a caller goes on when it has removed the file it had claimed. -/
def afterClaim (p : Publisher) : Option LocalStopRequest → PublishPhase
  | none => .linking
  | some existing =>
    if sameTopology existing.topology p.marker.topology then .rereading
    else .leaving (some differentTopology)

/-- The next operation of a caller. -/
def publishNext (w : StopWorld) (i : ℕ) (p : Publisher) : StopWorld :=
  match p.phase with
  | .linking => match w.canonical with
    | none => { w with canonical := some (.request p.marker) }.setPhase i p (.leaving none)
    | some _ => w.setPhase i p .claiming
  | .claiming => match w.canonical with
    | none => w.setPhase i p .linking
    | some file => { w with canonical := none }.setPhase i p (.reading file)
  | .reading claimed => match parseStopRequest claimed with
    | some existing => w.setPhase i p (.puttingBack existing)
    | none => w.setPhase i p (.removing none)
  | .puttingBack existing => match w.canonical with
    | none =>
      { w with canonical := some (.request existing) }.setPhase i p (.removing (some existing))
    | some _ => w.setPhase i p (.removing (some existing))
  | .removing existing => w.setPhase i p (afterClaim p existing)
  | .rereading => match w.canonical.bind parseStopRequest with
    | some current =>
      if sameTopology current.topology p.marker.topology then w.setPhase i p (.leaving none)
      else w.setPhase i p .linking
    | none => w.setPhase i p .linking
  | .leaving thrown => w.setPhase i p (.returned thrown)
  | .returned _ => w

/-- The next operation of the supervisor. -/
def superviseNext (c : Running) (w : StopWorld) : StopWorld :=
  match w.poll with
  | .idle | .stopping => w
  | .claiming now => match w.canonical with
    | none => { w with poll := .idle }
    | some file => { w with canonical := none, poll := .reading now file }
  | .reading now claim => match parseStopRequest claim with
    | some marker => { w with poll := .checking now marker }
    | none => { w with poll := .removing false }
  | .checking now marker => match c.readRuntimeState with
    | some state => { w with poll := .removing (sameTopology state c.topology &&
        stopRequestMatchesTopology marker c.topology now c.maximumAgeMs) }
    | none => { w with poll := .removing false }
  | .removing result => { w with poll := if result then .stopping else .idle }

/-- The callers publish requests for the running topology. -/
def step (c : Running) (w : StopWorld) : StopStep → StopWorld
  | .clock now => { w with now := max w.now now }
  | .publish marker =>
    if sameTopology marker.topology c.topology then
      { w with publishers := w.publishers ++ [⟨marker, .linking⟩] }
    else w
  | .advance i => match w.publishers[i]? with
    | some p => w.publishNext i p
    | none => w
  | .startPoll => match w.poll with
    | .idle => { w with poll := .claiming w.now }
    | _ => w
  | .supervise => w.superviseNext c

end StopWorld

end Qualigence.Launcher
