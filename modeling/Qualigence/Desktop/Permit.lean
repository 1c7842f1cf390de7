import Mathlib.Algebra.Group.Nat.Defs
import Qualigence.Protocol.Value

/-! # Permits of the desktop companion

The companion mints a permit for one desktop action when the approval gate lets the action
pass, and consumes it when the action is authorized. It keeps the hash of the token of a permit
with the binding of the permit and its expiry. A pause and an emergency stop are latches that
are looked at before the permits are.
-/

namespace Qualigence.Desktop

open Protocol (utf8Bytes utf8Bytes_injective)

inductive Risk where
  | normal
  | externalSideEffect
  | destructive
  | productionForbidden
  deriving DecidableEq

/-- How the approval policy treats a risk. -/
inductive RiskPolicy where
  | autoNormal
  | requiresApproval
  | forbidden
  deriving DecidableEq

def Risk.policy : Risk → RiskPolicy
  | .normal => .autoNormal
  | .externalSideEffect => .requiresApproval
  | .destructive => .requiresApproval
  | .productionForbidden => .forbidden

/-! ## Latches -/

inductive ControlState where
  | active
  | paused
  | emergencyStopped
  deriving DecidableEq

structure SessionControl where
  emergencyStopped : Bool
  paused : Bool
  deriving DecidableEq

namespace SessionControl

def new : SessionControl := ⟨false, false⟩

def state (c : SessionControl) : ControlState :=
  if c.emergencyStopped then .emergencyStopped
  else if c.paused then .paused
  else .active

def pause (c : SessionControl) : SessionControl :=
  if !c.emergencyStopped then { c with paused := true } else c

def resume (c : SessionControl) : SessionControl :=
  if !c.emergencyStopped then { c with paused := false } else c

def emergencyStop (c : SessionControl) : SessionControl :=
  { c with emergencyStopped := true, paused := false }

def reset (c : SessionControl) : SessionControl :=
  { c with emergencyStopped := false, paused := false }

@[simp] theorem emergencyStopped_pause (c : SessionControl) :
    c.pause.emergencyStopped = c.emergencyStopped := by
  unfold pause
  split <;> rfl

@[simp] theorem emergencyStopped_resume (c : SessionControl) :
    c.resume.emergencyStopped = c.emergencyStopped := by
  unfold resume
  split <;> rfl

@[simp] theorem emergencyStopped_emergencyStop (c : SessionControl) :
    c.emergencyStop.emergencyStopped = true := rfl

theorem state_eq_active {c : SessionControl} :
    c.state = .active ↔ c.emergencyStopped = false ∧ c.paused = false := by
  obtain ⟨emergencyStopped, paused⟩ := c
  cases emergencyStopped <;> cases paused <;> simp [state]

end SessionControl

/-! ## Approval -/

structure ApprovalRequest where
  approvalId : String
  sessionId : String
  runId : String
  actionId : String
  risk : Risk
  safeSummary : String
  deriving DecidableEq

inductive ApprovalOutcome where
  | approved
  | denied
  | timedOut
  deriving DecidableEq

inductive Decision where
  | approved
  | denied
  | timedOut
  | paused
  | emergencyStopped
  deriving DecidableEq

/-- A source of human approvals. -/
structure Approver (α : Type) where
  requestApproval : α → ApprovalRequest → ApprovalOutcome × α

structure ApprovalState (α : Type) where
  runId : String
  control : SessionControl
  approver : α
  deriving DecidableEq

section Approval

variable {α : Type} (A : Approver α)

/-- The latches come first, then the policy of the risk, and then the human. -/
def ApprovalState.decide (s : ApprovalState α) (request : ApprovalRequest) :
    Decision × ApprovalState α :=
  match s.control.state with
  | .emergencyStopped => (.emergencyStopped, s)
  | .paused => (.paused, s)
  | .active => match request.risk.policy with
    | .forbidden => (.denied, s)
    | .autoNormal => (.approved, s)
    | .requiresApproval =>
      let (outcome, approver) := A.requestApproval s.approver request
      let decision := match outcome with
        | .approved => .approved
        | .denied => .denied
        | .timedOut => .timedOut
      (decision, { s with approver })

/-- What an approval says about the latches, the risk and the human. -/
theorem decide_eq_approved {s : ApprovalState α} {request : ApprovalRequest}
    (h : (s.decide A request).1 = .approved) : s.control.state = .active ∧
      request.risk ≠ .productionForbidden ∧
      (request.risk ≠ .normal → (A.requestApproval s.approver request).1 = .approved) := by
  have hasked : ∀ outcome : ApprovalOutcome, (match outcome with
      | .approved => Decision.approved
      | .denied => .denied
      | .timedOut => .timedOut) = .approved → outcome = .approved := by
    intro outcome houtcome
    cases outcome with
    | approved => rfl
    | denied => cases houtcome
    | timedOut => cases houtcome
  unfold ApprovalState.decide at h
  cases hstate : s.control.state with
  | emergencyStopped => simp [hstate] at h
  | paused => simp [hstate] at h
  | active =>
    simp only [hstate] at h
    refine ⟨rfl, ?_⟩
    cases hrisk : request.risk with
    | normal => exact ⟨nofun, fun hn => absurd rfl hn⟩
    | productionForbidden => simp [hrisk, Risk.policy] at h
    | externalSideEffect =>
      simp only [hrisk, Risk.policy] at h
      exact ⟨nofun, fun _ => hasked _ h⟩
    | destructive =>
      simp only [hrisk, Risk.policy] at h
      exact ⟨nofun, fun _ => hasked _ h⟩

@[simp] theorem control_decide (s : ApprovalState α) (request : ApprovalRequest) :
    (s.decide A request).2.control = s.control := by
  unfold ApprovalState.decide
  split
  · rfl
  · rfl
  · split <;> rfl

end Approval

/-! ## Permits -/

/-- The identity that a permit is bound to. -/
structure PermitBinding where
  sessionId : String
  runId : String
  actionId : String
  actionDigestSha256 : String
  graphId : String
  risk : Risk
  deriving DecidableEq

structure IssuedPermit where
  token : String
  nonceBase64 : String
  issuedAtMs : ℕ
  expiresAtMs : ℕ
  binding : PermitBinding
  deriving DecidableEq

inductive PermitError where
  | unknownToken
  | alreadyConsumed
  | expired
  | bindingMismatch
  | emergencyStopped
  | paused
  | productionForbidden
  deriving DecidableEq

structure StoredPermit where
  binding : PermitBinding
  expiresAtMs : ℕ
  consumed : Bool
  deriving DecidableEq

/-- The permits by the hashes of their tokens. -/
structure PermitStore where
  entries : String → Option StoredPermit
  defaultTtlMs : ℕ

/-- What the companion uses of its environment: the random tokens and nonces it draws and the
readings of the clock, by the number of operations before, and the SHA-256 digest. -/
structure Environment where
  token : ℕ → String
  nonceBase64 : ℕ → String
  nowMs : ℕ → ℕ
  sha256Hex : List UInt8 → String

def u64Max : ℕ := 2 ^ 64 - 1

def saturatingAdd (a b : ℕ) : ℕ := min (a + b) u64Max

/-- Compare the bytes of two texts without stopping at a difference. -/
def ctEq (a b : String) : Bool :=
  let a := utf8Bytes a
  let b := utf8Bytes b
  if a.length ≠ b.length then false
  else decide ((a.zip b).foldl (fun diff xy => diff ||| (xy.1 ^^^ xy.2)) 0 = 0)

def constantTimeBindingEq (a b : PermitBinding) : Bool :=
  decide (a.risk = b.risk)
    && ctEq a.sessionId b.sessionId
    && ctEq a.runId b.runId
    && ctEq a.actionId b.actionId
    && ctEq a.actionDigestSha256 b.actionDigestSha256
    && ctEq a.graphId b.graphId

theorem foldl_xor_eq_zero {pairs : List (UInt8 × UInt8)} {diff : UInt8} :
    pairs.foldl (fun diff xy => diff ||| (xy.1 ^^^ xy.2)) diff = 0 ↔
      diff = 0 ∧ ∀ xy ∈ pairs, xy.1 = xy.2 := by
  induction pairs generalizing diff with
  | nil => simp
  | cons xy pairs ih =>
    simp [ih, and_assoc]

theorem ctEq_iff {a b : String} : ctEq a b ↔ a = b := by
  unfold ctEq
  dsimp only
  split
  · next hlen =>
    refine ⟨nofun, fun h => absurd (congrArg (fun s => (utf8Bytes s).length) h) hlen⟩
  · next hlen =>
    rw [not_not] at hlen
    rw [decide_eq_true_iff, foldl_xor_eq_zero]
    constructor
    · rintro ⟨-, hpairs⟩
      apply utf8Bytes_injective
      refine List.ext_getElem hlen fun i hi hj => ?_
      refine hpairs ((utf8Bytes a)[i], (utf8Bytes b)[i]) ?_
      rw [List.mem_iff_getElem]
      exact ⟨i, by simpa using ⟨hi, hj⟩, by simp⟩
    · rintro rfl
      refine ⟨rfl, fun xy hxy => ?_⟩
      simp only [List.zip_eq_zipWith, List.zipWith_self, List.mem_map] at hxy
      obtain ⟨x, -, rfl⟩ := hxy
      rfl

theorem constantTimeBindingEq_iff {a b : PermitBinding} :
    constantTimeBindingEq a b ↔ a = b := by
  obtain ⟨sessionId, runId, actionId, actionDigestSha256, graphId, risk⟩ := a
  obtain ⟨sessionId', runId', actionId', actionDigestSha256', graphId', risk'⟩ := b
  simp only [constantTimeBindingEq, Bool.and_eq_true, decide_eq_true_eq, ctEq_iff,
    PermitBinding.mk.injEq]
  tauto

namespace PermitStore

def new (defaultTtlMs : ℕ) : PermitStore := ⟨fun _ => none, defaultTtlMs⟩

def insert (store : PermitStore) (hash : String) (permit : StoredPermit) : PermitStore :=
  { store with entries := fun h => if h = hash then some permit else store.entries h }

@[simp] theorem entries_insert (store : PermitStore) (hash h : String) (permit : StoredPermit) :
    (store.insert hash permit).entries h =
      if h = hash then some permit else store.entries h := rfl

/-- Drop every pending permit. -/
def invalidateAll (store : PermitStore) : PermitStore :=
  { store with entries := fun _ => none }

@[simp] theorem entries_invalidateAll (store : PermitStore) (h : String) :
    store.invalidateAll.entries h = none := rfl

def expire (permit : StoredPermit) : StoredPermit := { permit with expiresAtMs := 0 }

def expireAllForDiagnostic (store : PermitStore) : PermitStore :=
  { store with entries := fun h => (store.entries h).map expire }

variable (E : Environment)

def tokenHash (token : String) : String := E.sha256Hex (utf8Bytes token)

/-- Mint a permit. `n` is the number of operations before. -/
def issueWithTtl (store : PermitStore) (n : ℕ) (binding : PermitBinding) (ttlMs : ℕ) :
    IssuedPermit × PermitStore :=
  let token := E.token n
  let issuedAtMs := E.nowMs n
  let expiresAtMs := saturatingAdd issuedAtMs ttlMs
  ({ token, nonceBase64 := E.nonceBase64 n, issuedAtMs, expiresAtMs, binding },
    store.insert (tokenHash E token) { binding, expiresAtMs, consumed := false })

def issue (store : PermitStore) (n : ℕ) (binding : PermitBinding) : IssuedPermit × PermitStore :=
  store.issueWithTtl E n binding store.defaultTtlMs

/-- Consume a permit. A permit whose binding does not match is kept. -/
def consume (store : PermitStore) (n : ℕ) (control : SessionControl) (token : String)
    (presented : PermitBinding) : Except PermitError Unit × PermitStore :=
  if control.emergencyStopped then (.error .emergencyStopped, store)
  else if control.paused then (.error .paused, store)
  else if presented.risk = .productionForbidden then (.error .productionForbidden, store)
  else
    let hash := tokenHash E token
    let now := E.nowMs n
    match store.entries hash with
    | none => (.error .unknownToken, store)
    | some entry =>
      if entry.consumed then (.error .alreadyConsumed, store)
      else if now ≥ entry.expiresAtMs then (.error .expired, store)
      else if !constantTimeBindingEq entry.binding presented then (.error .bindingMismatch, store)
      else (.ok (), store.insert hash { entry with consumed := true })

end PermitStore

/-! ## Companion -/

/-- The gate and the permits of one session. -/
structure Companion (α : Type) where
  sessionId : String
  approval : ApprovalState α
  permits : PermitStore

inductive PermitRequestOutcome where
  | issued (permit : IssuedPermit)
  | rejected (decision : Decision)
  deriving DecidableEq

namespace Companion

variable {α : Type} (E : Environment) (A : Approver α)

def new (sessionId : String) (approval : ApprovalState α) (permits : PermitStore) :
    Companion α := ⟨sessionId, approval, permits⟩

def state (c : Companion α) : ControlState := c.approval.control.state

/-- Mint a permit for an approved action. -/
def requestPermit (c : Companion α) (n : ℕ) (request : ApprovalRequest)
    (binding : PermitBinding) : PermitRequestOutcome × Companion α :=
  match c.approval.decide A request with
  | (.approved, approval) =>
    let (permit, permits) := c.permits.issue E n binding
    (.issued permit, { c with approval, permits })
  | (other, approval) => (.rejected other, { c with approval })

def authorizeAction (c : Companion α) (n : ℕ) (token : String) (presented : PermitBinding) :
    Except PermitError Unit × Companion α :=
  let (result, permits) := c.permits.consume E n c.approval.control token presented
  (result, { c with permits })

def withControl (c : Companion α) (f : SessionControl → SessionControl) : Companion α :=
  { c with approval := { c.approval with control := f c.approval.control } }

def pause (c : Companion α) : Companion α := c.withControl .pause

def resume (c : Companion α) : Companion α := c.withControl .resume

def emergencyStop (c : Companion α) : Companion α :=
  let c := c.withControl .emergencyStop
  { c with permits := c.permits.invalidateAll }

def expirePermitsForDiagnostic (c : Companion α) : Companion α :=
  { c with permits := c.permits.expireAllForDiagnostic }

def resetSession (c : Companion α) (newSessionId : String) : Companion α :=
  let c := c.withControl .reset
  { c with permits := c.permits.invalidateAll, sessionId := newSessionId }

end Companion

end Qualigence.Desktop
