import Mathlib.Data.Int.Notation
import Mathlib.Data.Nat.Notation

/-! # The action window of a lease

The Runner acts under a lease within a window that it opens when the lease is received, and that it
extends with every renewal. The renewals, their messages, Core and the checks of the window take
steps on one time line of milliseconds; the clocks of the Runner and of Core run at its rate.
-/

namespace Qualigence.Runner

/-- The duration and the margin of a window, and what the clocks show at time zero. -/
structure LeaseOptions where
  leaseDurationMs : ℕ
  actionDeadlineSafetyMarginMs : ℕ
  monotonicOffset : ℤ
  coreOffset : ℤ

namespace LeaseOptions

variable (o : LeaseOptions)

def monotonicNow (now : ℤ) : ℤ := now + o.monotonicOffset

def coreNow (now : ℤ) : ℤ := now + o.coreOffset

/-- How long the controller waits before a renewal, and for its answer. -/
def intervalMs : ℕ := max 1 (o.leaseDurationMs / 3)

end LeaseOptions

structure LeaseWindow where
  deadlineMonotonic : ℤ
  expiryMonotonic : ℤ
  baselineWall : ℤ
  closed : Bool
  deriving DecidableEq

namespace LeaseWindow

variable (o : LeaseOptions)

/-- The window for a lease that is received at the given readings of the clocks. -/
def received (monotonicNow wallNow : ℤ) : LeaseWindow where
  deadlineMonotonic := monotonicNow + o.leaseDurationMs - o.actionDeadlineSafetyMarginMs
  expiryMonotonic := monotonicNow + o.leaseDurationMs
  baselineWall := wallNow
  closed := false

def renew (w : LeaseWindow) (monotonicNow wallNow : ℤ) : LeaseWindow where
  deadlineMonotonic := monotonicNow + o.leaseDurationMs - o.actionDeadlineSafetyMarginMs
  expiryMonotonic := monotonicNow + o.leaseDurationMs
  baselineWall := wallNow
  closed := w.closed

def close (w : LeaseWindow) : LeaseWindow := { w with closed := true }

def mayStartAction (w : LeaseWindow) (monotonicNow wallNow : ℤ) : Bool :=
  if w.closed then false
  else if w.deadlineMonotonic ≤ monotonicNow then false
  else if wallNow < w.baselineWall then false
  else true

def hasExpired (w : LeaseWindow) (monotonicNow : ℤ) : Bool := w.expiryMonotonic ≤ monotonicNow

end LeaseWindow

/-- Why the execution was aborted. -/
inductive AbortReason where
  | leaseExpiredBeforeRenewal
  | renewalTimeout (timeoutMs : ℕ)
  | renewalFailed
  | executionBlocked (errorCode : String)
  | caller
  deriving DecidableEq

/-- Where the loop of the renewals is: it waits, or a renewal is under way and is given up when the
time has come. -/
inductive RenewalPhase where
  | waiting (due : ℤ)
  | renewing (due : ℤ)
  | ended
  deriving DecidableEq

/-- An answer of Core to a renewal that the Runner has not handled yet. -/
inductive RenewalReply where
  | renewed (setAt : ℤ)
  | failed
  deriving DecidableEq

/-- An accepted run. Core has stored when its lease expires, by the clock of Core; `setAt` and
`receivedAt` are the times when Core set the expiry and when the Runner handled the answer, for the
last answer that the window was set from. -/
structure AcceptedLeaseLifecycle where
  now : ℤ
  expiresAt : ℤ
  request : Bool
  reply : Option RenewalReply
  window : LeaseWindow
  phase : RenewalPhase
  stopped : Bool
  callerAborted : Bool
  executionAbort : Option AbortReason
  setAt : ℤ
  receivedAt : ℤ
  deriving DecidableEq

namespace AcceptedLeaseLifecycle

variable (o : LeaseOptions)

/-- The lifecycle of a lease that Core has granted at `setAt` and that the Runner has at
`receivedAt`. -/
def accepted (setAt receivedAt wallNow : ℤ) : AcceptedLeaseLifecycle where
  now := receivedAt
  expiresAt := o.coreNow setAt + o.leaseDurationMs
  request := false
  reply := none
  window := .received o (o.monotonicNow receivedAt) wallNow
  phase := .waiting (receivedAt + o.intervalMs)
  stopped := false
  callerAborted := false
  executionAbort := none
  setAt := setAt
  receivedAt := receivedAt

/-- `signal.aborted`. -/
def aborted (s : AcceptedLeaseLifecycle) : Option AbortReason :=
  if s.callerAborted then some .caller else s.executionAbort

/-- Close the window and abort the execution, which keeps the first reason. -/
def shut (s : AcceptedLeaseLifecycle) (reason : AbortReason) : AcceptedLeaseLifecycle :=
  { s with window := s.window.close, executionAbort := s.executionAbort.or (some reason) }

/-- The renewals end with a failure. -/
def fail (s : AcceptedLeaseLifecycle) (reason : AbortReason) : AcceptedLeaseLifecycle :=
  { s.shut reason with phase := .ended }

/-- The outcome of `assertActionAuthorized`, and what is left by it. -/
def assertActionAuthorized (s : AcceptedLeaseLifecycle) (wallNow : ℤ) :
    Except AbortReason Unit × AcceptedLeaseLifecycle :=
  match s.aborted with
  | some reason => (.error reason, s)
  | none =>
    if s.window.mayStartAction (o.monotonicNow s.now) wallNow then (.ok (), s)
    else (.error (.executionBlocked "LeaseExpired"), s.shut (.executionBlocked "LeaseExpired"))

/-- `assertLeaseActive`. -/
def assertLeaseActive (s : AcceptedLeaseLifecycle) :
    Except AbortReason Unit × AcceptedLeaseLifecycle :=
  match s.aborted with
  | some reason => (.error reason, s)
  | none =>
    if s.window.hasExpired (o.monotonicNow s.now) then
      (.error (.executionBlocked "LeaseExpired"), s.shut (.executionBlocked "LeaseExpired"))
    else (.ok (), s)

/-- The lease that Core has stored has expired. -/
def Expired (s : AcceptedLeaseLifecycle) : Prop := s.expiresAt ≤ o.coreNow s.now

/-- What may happen next. Timers, requests and answers may take their time. -/
inductive LeaseStep where
  | advance (now : ℤ)
  | wake
  | coreRenews
  | coreRefuses
  | respond (wallNow : ℤ)
  | timeOut
  | stop
  | abortCaller
  | authorize (wallNow : ℤ)
  | checkLease

/-- A wait for the next renewal ends when the renewals are to end. -/
def endWait : RenewalPhase → RenewalPhase
  | .waiting _ => .ended
  | phase => phase

/-- An answer to a renewal. After its time limit nobody waits for it. -/
def handleReply (s : AcceptedLeaseLifecycle) (reply : RenewalReply) (wallNow : ℤ) :
    AcceptedLeaseLifecycle :=
  match s.phase, reply with
  | .renewing _, .renewed setAt =>
    { s with
      reply := none
      window := s.window.renew o (o.monotonicNow s.now) wallNow
      phase := if s.stopped ∨ s.callerAborted then .ended else .waiting (s.now + o.intervalMs)
      setAt := setAt
      receivedAt := s.now }
  | .renewing _, .failed => { s with reply := none }.fail .renewalFailed
  | _, _ => { s with reply := none }

def step (s : AcceptedLeaseLifecycle) : LeaseStep → Option AcceptedLeaseLifecycle
  | .advance now => if s.now ≤ now then some { s with now := now } else none
  | .wake => match s.phase with
    | .waiting due =>
      if due ≤ s.now then
        if s.window.hasExpired (o.monotonicNow s.now) then some (s.fail .leaseExpiredBeforeRenewal)
        else some { s with phase := .renewing (s.now + o.intervalMs), request := true }
      else none
    | _ => none
  | .coreRenews =>
    if s.request then
      if s.expiresAt ≤ o.coreNow s.now then
        some { s with request := false, reply := some .failed }
      else
        some { s with
          request := false
          reply := some (.renewed s.now)
          expiresAt := o.coreNow s.now + o.leaseDurationMs }
    else none
  | .coreRefuses =>
    if s.request then some { s with request := false, reply := some .failed } else none
  | .respond wallNow => s.reply.map fun reply => s.handleReply o reply wallNow
  | .timeOut => match s.phase with
    | .renewing due =>
      if due ≤ s.now then some (s.fail (.renewalTimeout o.intervalMs)) else none
    | _ => none
  | .stop => some { s with stopped := true, phase := endWait s.phase }
  | .abortCaller => some { s with callerAborted := true, phase := endWait s.phase }
  | .authorize wallNow => some (s.assertActionAuthorized o wallNow).2
  | .checkLease => some (s.assertLeaseActive o).2

end AcceptedLeaseLifecycle

end Qualigence.Runner
