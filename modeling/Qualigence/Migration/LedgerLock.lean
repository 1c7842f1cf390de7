import Qualigence.Foundation.History
import Qualigence.Protocol.Instant
import Qualigence.Protocol.Value

/-! # The lock of the migration ledger

An append holds the lock file of its ledger, which it creates exclusively and removes in the end. A
process that finds the file reads it, and removes it when the process that it names is dead, or
when it names none and is old. Processes take turns, one file operation at a time, and may crash
between any two of them.
-/

namespace Qualigence.Migration

open Protocol

/-- A file at the lock path; files that were created one after another differ in `inode`. -/
structure LockFile where
  inode : ℕ
  content : String
  modifiedAt : Int
  deriving DecidableEq

/-- How far a process is in `acquireLedgerLock`, in `recoverStaleLedgerLock` or in `release`. -/
inductive LockPhase where
  | idle
  | opening (started : Int)
  | writing (inode : ℕ)
  | holding (inode : ℕ)
  | closing (inode : ℕ)
  | removing (inode : ℕ)
  | reading (started : Int)
  | checking (started : Int) (pid : ℕ) (seen : LockFile)
  | stating (started : Int)
  | recovering (started : Int) (inode : ℕ) (byAge : Bool)
  | waiting (started : Int)
  deriving DecidableEq

structure LockProcess where
  pid : ℕ
  alive : Bool
  phase : LockPhase
  deriving DecidableEq

structure LockWorld where
  path : Option LockFile
  nextInode : ℕ
  now : Int
  processes : List LockProcess
  deriving DecidableEq

def waitTimeoutMs : Int := 30000
def staleAfterMs : Int := 30000

/-! ## The content of a lock file -/

def lockText (pid : ℕ) (now : Int) : String :=
  toString pid ++ "\n" ++ toISOString now ++ "\n"

/-- The decimal digits that a token starts with, after a plus sign at most. -/
def leadingDigits : List Char → List Char
  | '+' :: rest => rest.takeWhile Char.isDigit
  | rest => rest.takeWhile Char.isDigit

/-- `Number.parseInt(token, 10)`, where it is no negative number. -/
def parseInt (token : List Char) : Option ℕ :=
  if leadingDigits token = [] then none
  else some (Nat.ofDigitChars 10 (leadingDigits token) 0)

/-- The positive process id that a lock file starts with. -/
def lockPid (raw : String) : Option ℕ :=
  let token := (raw.toList.dropWhile isJsSpace).takeWhile fun c => !isJsSpace c
  (parseInt token).filter fun pid => 0 < pid

/-! ## Steps -/

inductive LockEvent where
  /-- A new process of the operator starts. -/
  | start (pid : ℕ)
  | crash (i : ℕ)
  | clock (now : Int)
  /-- A process starts an append, or its append is done. -/
  | acquire (i : ℕ)
  | release (i : ℕ)
  /-- The next operation of a process; `foreign` tells whether a process of somebody else has the
  process id that is checked. -/
  | step (i : ℕ) (foreign : Bool)
  /-- The next operation of a process fails, after it wrote `written` characters of its text. -/
  | fail (i : ℕ) (written : ℕ)
  deriving DecidableEq

namespace LockWorld

def initial : LockWorld := ⟨none, 0, 0, []⟩

def setPhase (w : LockWorld) (i : ℕ) (p : LockProcess) (phase : LockPhase) : LockWorld :=
  { w with processes := w.processes.set i { p with phase } }

/-- Some live process has a process id. -/
def Runs (w : LockWorld) (pid : ℕ) : Prop :=
  ∃ p ∈ w.processes, p.alive ∧ p.pid = pid

instance (w : LockWorld) (pid : ℕ) : Decidable (w.Runs pid) :=
  inferInstanceAs (Decidable (∃ p ∈ w.processes, p.alive ∧ p.pid = pid))

/-- Write to an open file, which may have been removed. -/
def write (w : LockWorld) (inode : ℕ) (content : String) : LockWorld :=
  { w with path := w.path.map fun f =>
      if f.inode = inode then { f with content, modifiedAt := w.now } else f }

/-- The next operation of a process. -/
def perform (w : LockWorld) (i : ℕ) (p : LockProcess) (foreign : Bool) : LockWorld :=
  match p.phase with
  | .idle | .holding _ => w
  | .opening started => match w.path with
    | some _ => w.setPhase i p (.reading started)
    | none => { w with path := some ⟨w.nextInode, "", w.now⟩, nextInode := w.nextInode + 1 }.setPhase
        i p (.writing w.nextInode)
  | .writing inode => (w.write inode (lockText p.pid w.now)).setPhase i p (.holding inode)
  | .closing inode => w.setPhase i p (.removing inode)
  | .removing _ => { w with path := none }.setPhase i p .idle
  | .reading started => match w.path with
    | none => w.setPhase i p (.opening started)
    | some f => match lockPid f.content with
      | some pid => w.setPhase i p (.checking started pid f)
      | none => w.setPhase i p (.stating started)
  | .checking started pid seen =>
    if pid = p.pid ∨ w.Runs pid ∨ foreign then w.setPhase i p (.waiting started)
    else w.setPhase i p (.recovering started seen.inode false)
  | .stating started => match w.path with
    | none => w.setPhase i p (.opening started)
    | some f =>
      if staleAfterMs < w.now - f.modifiedAt then
        w.setPhase i p (.recovering started f.inode true)
      else w.setPhase i p (.waiting started)
  | .recovering started _ _ => { w with path := none }.setPhase i p (.opening started)
  | .waiting started =>
    if waitTimeoutMs < w.now - started then w.setPhase i p .idle
    else w.setPhase i p (.opening started)

/-- The next operation of a process raises an error. -/
def performFailing (w : LockWorld) (i : ℕ) (p : LockProcess) (written : ℕ) : LockWorld :=
  match p.phase with
  | .holding _ => w
  | .writing inode =>
    (w.write inode (String.ofList ((lockText p.pid w.now).toList.take written))).setPhase i p .idle
  | _ => w.setPhase i p .idle

def step (w : LockWorld) : LockEvent → LockWorld
  | .start pid =>
    if pid = 0 ∨ w.Runs pid then w
    else { w with processes := w.processes ++ [⟨pid, true, .idle⟩] }
  | .clock now => { w with now }
  | .crash i => match w.processes[i]? with
    | none => w
    | some p => { w with processes := w.processes.set i { p with alive := false } }
  | .acquire i => match w.processes[i]? with
    | some ⟨pid, true, .idle⟩ => w.setPhase i ⟨pid, true, .idle⟩ (.opening w.now)
    | _ => w
  | .release i => match w.processes[i]? with
    | some ⟨pid, true, .holding inode⟩ =>
      w.setPhase i ⟨pid, true, .holding inode⟩ (.closing inode)
    | _ => w
  | .step i foreign => match w.processes[i]? with
    | some p => if p.alive then w.perform i p foreign else w
    | none => w
  | .fail i written => match w.processes[i]? with
    | some p => if p.alive then w.performFailing i p written else w
    | none => w

def run (events : List LockEvent) : LockWorld := events.foldl step initial

end LockWorld

/-! ## Exclusion -/

/-- The process is between acquiring and releasing the lock. -/
def LockPhase.holds : LockPhase → Bool
  | .holding _ | .closing _ | .removing _ => true
  | _ => false

/-- At most one live process is between acquiring and releasing the lock. -/
def LockWorld.Exclusive (w : LockWorld) : Prop :=
  ∀ (i j : ℕ) (p q : LockProcess), w.processes[i]? = some p → w.processes[j]? = some q →
    p.alive → q.alive → p.phase.holds → q.phase.holds → i = j

/-- The file that a process has created and not yet removed. -/
def LockPhase.owned : LockPhase → Option ℕ
  | .writing inode | .holding inode | .closing inode | .removing inode => some inode
  | _ => none

namespace LockWorld

/-- A live process has created a file and not yet removed it. -/
def Owned (w : LockWorld) (inode : ℕ) : Prop :=
  ∃ p ∈ w.processes, p.alive ∧ p.phase.owned = some inode

instance (w : LockWorld) (inode : ℕ) : Decidable (w.Owned inode) :=
  inferInstanceAs (Decidable (∃ p ∈ w.processes, p.alive ∧ p.phase.owned = some inode))

/-- A recovery that is about to remove the file at the lock path has examined this file, and its
creator is gone if it was examined for its age. -/
def CarefulRecovery (w : LockWorld) : Option LockProcess → Prop
  | some ⟨_, true, .recovering _ inode byAge⟩ =>
    ∀ f ∈ w.path, f.inode = inode ∧ (byAge → ¬ w.Owned inode)
  | _ => True

def Careful (w : LockWorld) : LockEvent → Prop
  | .step i _ => w.CarefulRecovery w.processes[i]?
  | _ => True

instance (w : LockWorld) (x : Option LockProcess) : Decidable (w.CarefulRecovery x) := by
  unfold CarefulRecovery
  split
  · exact inferInstance
  · exact inferInstance

instance (w : LockWorld) (e : LockEvent) : Decidable (w.Careful e) := by
  unfold Careful
  split
  · exact inferInstance
  · exact inferInstance

end LockWorld

end Qualigence.Migration
