import Qualigence.Foundation.Program
import Qualigence.Foundation.Table

/-! # Runner enrollment and certificate bindings

The service exchanges a single-use enrollment for a client certificate, rotates certificates
and revokes the bindings of a Runner. Each step of its stores is one statement inside the
transaction of a tenant, whose row-level security hides the rows of other tenants. Instants
are kept as milliseconds.
-/

namespace Qualigence.RunnerIdentity

open Foundation

/-! ## Domain -/

inductive RunnerIdentityErrorCode where
  | runnerEnrollmentNotFound
  | runnerEnrollmentExpired
  | runnerEnrollmentTokenInvalid
  | runnerEnrollmentAlreadyConsumed
  | runnerCsrInvalid
  | runnerKeyTooWeak
  | runnerPrincipalNotFound
  deriving DecidableEq

structure RunnerIdentityError where
  code : RunnerIdentityErrorCode
  message : String
  deriving DecidableEq

/-- What the service throws itself, and what a statement of a store fails with. -/
inductive IdentityFailure where
  | identity (error : RunnerIdentityError)
  | store (message : String)
  deriving DecidableEq

inductive RunnerStatus where
  | active
  | suspended
  | revoked
  deriving DecidableEq

structure RunnerEnrollment where
  enrollmentId : String
  tenantId : String
  runnerId : String
  projectIds : List String
  tokenHash : String
  expiresAt : Int
  consumedAt : Option Int
  deriving DecidableEq

structure RunnerPrincipal where
  runnerId : String
  tenantId : String
  projectIds : List String
  certificateFingerprintSha256 : String
  certificateUriSan : String
  enrollmentId : String
  status : RunnerStatus
  certificateNotAfter : Int
  deriving DecidableEq

structure IssueRunnerCertificateInput where
  runnerId : String
  tenantId : String
  csrPem : String
  uriSan : String

structure IssuedRunnerCertificate where
  runnerId : String
  certificatePem : String
  caCertificatePem : String
  certificateFingerprintSha256 : String
  certificateNotAfter : Int
  deriving DecidableEq

def runnerUriSan (tenantId runnerId : String) : String :=
  s!"spiffe://qualigence.local/tenants/{tenantId}/runners/{runnerId}"

abbrev EnrollmentKey := String × String
abbrev BindingKey := String × String

def RunnerEnrollment.key (e : RunnerEnrollment) : EnrollmentKey := (e.tenantId, e.enrollmentId)

def RunnerPrincipal.key (b : RunnerPrincipal) : BindingKey :=
  (b.tenantId, b.certificateFingerprintSha256)

def RunnerEnrollment.setConsumedAt (e : RunnerEnrollment) (consumedAt : Int) : RunnerEnrollment :=
  { e with consumedAt := some consumedAt }

def RunnerPrincipal.setStatus (b : RunnerPrincipal) (status : RunnerStatus) : RunnerPrincipal :=
  { b with status }

/-- The columns of a row outside its key, as another binding has them. -/
def RunnerPrincipal.rewrite (principal b : RunnerPrincipal) : RunnerPrincipal :=
  { principal with
    tenantId := b.tenantId
    certificateFingerprintSha256 := b.certificateFingerprintSha256 }

@[simp] theorem RunnerEnrollment.key_setConsumedAt (e : RunnerEnrollment) (consumedAt : Int) :
    (e.setConsumedAt consumedAt).key = e.key := rfl

@[simp] theorem RunnerPrincipal.key_setStatus (b : RunnerPrincipal) (status : RunnerStatus) :
    (b.setStatus status).key = b.key := rfl

@[simp] theorem RunnerPrincipal.key_rewrite (principal b : RunnerPrincipal) :
    (principal.rewrite b).key = b.key := rfl

/-- The code outside the service: the digest of tokens, the certificate authority and the
clock by the number of calls, and the generators. -/
structure IdentityPlatform where
  hashEnrollmentToken : String → String
  issue : ℕ → IssueRunnerCertificateInput → Except RunnerIdentityError IssuedRunnerCertificate
  now : ℕ → Int
  generateId : ℕ → String
  generateToken : ℕ → String

/-! ## Steps of the stores -/

/-- One step of the service. A binding that is stored names the one it was rotated from,
which no statement reads. -/
inductive IdentityOp where
  | now
  | generateId
  | generateToken
  | issue (input : IssueRunnerCertificateInput)
  | create (scope : String) (enrollment : RunnerEnrollment)
  | findById (scope enrollmentId : String)
  | consume (scope enrollmentId : String) (consumedAt : Int)
  | put (scope : String) (principal : RunnerPrincipal) (rotatedFrom : Option RunnerPrincipal)
  | listByRunner (scope tenantId runnerId : String)
  | updateStatus (scope tenantId runnerId : String) (status : RunnerStatus)

def IdentityOp.Reply : IdentityOp → Type
  | .now => Int
  | .generateId => String
  | .generateToken => String
  | .issue _ => IssuedRunnerCertificate
  | .create _ _ => Unit
  | .findById _ _ => Option RunnerEnrollment
  | .consume _ _ _ => Bool
  | .put _ _ _ => Unit
  | .listByRunner _ _ _ => List RunnerPrincipal
  | .updateStatus _ _ _ _ => Unit

abbrev identitySignature : Signature := ⟨IdentityOp, IdentityOp.Reply⟩

abbrev IdentityProgram (α : Type) := Program identitySignature IdentityFailure α

def perform (op : IdentityOp) : IdentityProgram op.Reply :=
  Program.perform (S := identitySignature) op

/-- What happened so far. No step reads it. -/
structure IdentityLog where
  certificates : List String
  stored : List String
  rotations : List (BindingKey × BindingKey)
  revoked : List BindingKey

structure IdentityWorld where
  enrollments : Table RunnerEnrollment RunnerEnrollment.key
  principals : Table RunnerPrincipal RunnerPrincipal.key
  draws : ℕ
  issued : ℕ
  log : IdentityLog

namespace IdentityWorld

def initial : IdentityWorld where
  enrollments := .empty
  principals := .empty
  draws := 0
  issued := 0
  log := ⟨[], [], [], []⟩

def tick (w : IdentityWorld) : IdentityWorld := { w with draws := w.draws + 1 }

/-- The rows of a Runner, as a statement in the transaction of a tenant sees them. -/
def ofRunner (scope tenantId runnerId : String) (b : RunnerPrincipal) : Bool :=
  b.tenantId = scope ∧ b.tenantId = tenantId ∧ b.runnerId = runnerId

def listByRunner (w : IdentityWorld) (scope tenantId runnerId : String) : List RunnerPrincipal :=
  w.principals.rows.filter (ofRunner scope tenantId runnerId)

/-- Insert a binding, or rewrite the one with its fingerprint. -/
def upsert (t : Table RunnerPrincipal RunnerPrincipal.key) (principal : RunnerPrincipal) :
    Table RunnerPrincipal RunnerPrincipal.key :=
  match t.insert principal with
  | some t' => t'
  | none =>
    t.update (fun b => decide (b.key = principal.key)) principal.rewrite principal.key_rewrite

def put (w : IdentityWorld) (principal : RunnerPrincipal)
    (rotatedFrom : Option RunnerPrincipal) : IdentityWorld :=
  let rotation := rotatedFrom.toList.map fun b => (principal.key, b.key)
  { w with
    principals := upsert w.principals principal
    log.stored := w.log.stored ++ [principal.certificateFingerprintSha256]
    log.rotations := w.log.rotations ++ rotation }

def updateStatus (w : IdentityWorld) (scope tenantId runnerId : String) (status : RunnerStatus) :
    IdentityWorld :=
  let covered := (w.listByRunner scope tenantId runnerId).map RunnerPrincipal.key
  let principals := w.principals.update (ofRunner scope tenantId runnerId)
    (fun b => b.setStatus status) fun b => b.key_setStatus status
  { w with
    principals
    log.revoked := if status = .revoked then w.log.revoked ++ covered else w.log.revoked }

/-- A test-and-set: the enrollment is consumed unless it was. -/
def consume (w : IdentityWorld) (key : EnrollmentKey) (consumedAt : Int) :
    Bool × IdentityWorld :=
  let unconsumed := fun e : RunnerEnrollment => decide (e.key = key) && e.consumedAt.isNone
  let enrollments := w.enrollments.update unconsumed
    (fun e => e.setConsumedAt consumedAt) fun e => e.key_setConsumedAt consumedAt
  (decide (w.enrollments.count unconsumed = 1), { w with enrollments })

end IdentityWorld

variable (P : IdentityPlatform)

open IdentityWorld in
def handler : Handler identitySignature IdentityFailure IdentityWorld
  | .now, w => (.ok (P.now w.draws), w.tick)
  | .generateId, w => (.ok (P.generateId w.draws), w.tick)
  | .generateToken, w => (.ok (P.generateToken w.draws), w.tick)
  | .issue input, w => match P.issue w.issued input with
    | .ok issued => (.ok issued, { w with
        issued := w.issued + 1
        log.certificates := w.log.certificates ++ [issued.certificateFingerprintSha256] })
    | .error e => (.error (.identity e), { w with issued := w.issued + 1 })
  | .create scope enrollment, w =>
    if enrollment.tenantId = scope then
      match w.enrollments.insert enrollment with
      | some enrollments => (.ok (), { w with enrollments })
      | none => (.error (.store "duplicate key value violates unique constraint"), w)
    else (.error (.store "new row violates row-level security policy"), w)
  | .findById scope enrollmentId, w => (.ok (w.enrollments.get (scope, enrollmentId)), w)
  | .consume scope enrollmentId consumedAt, w =>
    let r := w.consume (scope, enrollmentId) consumedAt
    (.ok r.1, r.2)
  | .put scope principal rotatedFrom, w =>
    if principal.tenantId = scope then (.ok (), w.put principal rotatedFrom)
    else (.error (.store "new row violates row-level security policy"), w)
  | .listByRunner scope tenantId runnerId, w => (.ok (w.listByRunner scope tenantId runnerId), w)
  | .updateStatus scope tenantId runnerId status, w =>
    (.ok (), w.updateStatus scope tenantId runnerId status)

/-! ## The service -/

structure CreateRunnerEnrollmentInput where
  tenantId : String
  runnerId : String
  projectIds : List String
  ttlMs : Int
  deriving DecidableEq

/-- The requests of the service, each in the transaction of the tenant `scope`. -/
inductive IdentityRequest where
  | createEnrollment (scope : String) (input : CreateRunnerEnrollmentInput)
  | issueCertificate (scope enrollmentId token csrPem : String)
  | rotateCertificate (scope tenantId runnerId csrPem : String)
  | revokeRunner (scope tenantId runnerId : String)
  | suspendRunner (scope tenantId runnerId : String)
  deriving DecidableEq

inductive IdentityReply where
  | enrollment (enrollment : RunnerEnrollment) (enrollmentToken : String)
  | certificate (issued : IssuedRunnerCertificate)
  | bindings (principals : List RunnerPrincipal)

namespace RunnerEnrollmentService

def fail {α : Type} (code : RunnerIdentityErrorCode) (message : String) : IdentityProgram α :=
  .throw (.identity ⟨code, message⟩)

def createEnrollment (scope : String) (input : CreateRunnerEnrollmentInput) :
    IdentityProgram IdentityReply := do
  let token : String ← perform .generateToken
  let nowMs : Int ← perform .now
  let enrollmentId : String ← perform .generateId
  let enrollment : RunnerEnrollment := {
    enrollmentId
    tenantId := input.tenantId
    runnerId := input.runnerId
    projectIds := input.projectIds
    tokenHash := P.hashEnrollmentToken token
    expiresAt := nowMs + input.ttlMs
    consumedAt := none }
  let _ : Unit ← perform (.create scope enrollment)
  return .enrollment enrollment token

def bindPrincipal (enrollment : RunnerEnrollment) (uriSan : String)
    (issued : IssuedRunnerCertificate) : RunnerPrincipal where
  runnerId := enrollment.runnerId
  tenantId := enrollment.tenantId
  projectIds := enrollment.projectIds
  certificateFingerprintSha256 := issued.certificateFingerprintSha256
  certificateUriSan := uriSan
  enrollmentId := enrollment.enrollmentId
  status := .active
  certificateNotAfter := issued.certificateNotAfter

/-- The binding of a certificate that was issued for a Runner with an active binding. -/
def rotated (active : RunnerPrincipal) (tenantId runnerId : String)
    (issued : IssuedRunnerCertificate) : RunnerPrincipal where
  runnerId := runnerId
  tenantId := tenantId
  projectIds := active.projectIds
  certificateFingerprintSha256 := issued.certificateFingerprintSha256
  certificateUriSan := active.certificateUriSan
  enrollmentId := active.enrollmentId
  status := .active
  certificateNotAfter := issued.certificateNotAfter

/-- Consume the enrollment, and bind the certificate only when it was not consumed before. -/
def consumeAndBind (scope enrollmentId : String) (now : Int) (enrollment : RunnerEnrollment)
    (uriSan : String) (issued : IssuedRunnerCertificate) : IdentityProgram IdentityReply := do
  let consumed : Bool ← perform (.consume scope enrollmentId now)
  if consumed then
    let _ : Unit ← perform (.put scope (bindPrincipal enrollment uriSan issued) none)
    return .certificate issued
  else fail .runnerEnrollmentAlreadyConsumed s!"enrollment {enrollmentId} was already consumed"

def issueCertificate (scope enrollmentId token csrPem : String) :
    IdentityProgram IdentityReply := do
  let found : Option RunnerEnrollment ← perform (.findById scope enrollmentId)
  match found with
  | none => fail .runnerEnrollmentNotFound s!"enrollment {enrollmentId} not found"
  | some enrollment =>
    if enrollment.consumedAt.isSome then
      fail .runnerEnrollmentAlreadyConsumed s!"enrollment {enrollmentId} was already consumed"
    else
      let now : Int ← perform .now
      if now > enrollment.expiresAt then
        fail .runnerEnrollmentExpired s!"enrollment {enrollmentId} has expired"
      else if P.hashEnrollmentToken token ≠ enrollment.tokenHash then
        fail .runnerEnrollmentTokenInvalid "enrollment token does not match"
      else
        let uriSan := runnerUriSan enrollment.tenantId enrollment.runnerId
        let issued : IssuedRunnerCertificate ← perform
          (.issue ⟨enrollment.runnerId, enrollment.tenantId, csrPem, uriSan⟩)
        -- the enrollment is consumed only after the request for a certificate was accepted
        consumeAndBind scope enrollmentId now enrollment uriSan issued

def rotateCertificate (scope tenantId runnerId csrPem : String) :
    IdentityProgram IdentityReply := do
  let bindings : List RunnerPrincipal ← perform (.listByRunner scope tenantId runnerId)
  match bindings.find? fun binding => binding.status = .active with
  | none =>
    let message := s!"no active certificate binding for runner {runnerId} in tenant {tenantId}"
    fail .runnerPrincipalNotFound message
  | some active =>
    let issued : IssuedRunnerCertificate ← perform
      (.issue ⟨runnerId, tenantId, csrPem, active.certificateUriSan⟩)
    let _ : Unit ← perform (.put scope (rotated active tenantId runnerId issued) (some active))
    return .certificate issued

def setStatusForRunner (scope tenantId runnerId : String) (status : RunnerStatus) :
    IdentityProgram IdentityReply := do
  let _ : Unit ← perform (.updateStatus scope tenantId runnerId status)
  let bindings : List RunnerPrincipal ← perform (.listByRunner scope tenantId runnerId)
  return .bindings bindings

def revokeRunner (scope tenantId runnerId : String) : IdentityProgram IdentityReply :=
  setStatusForRunner scope tenantId runnerId .revoked

def suspendRunner (scope tenantId runnerId : String) : IdentityProgram IdentityReply :=
  setStatusForRunner scope tenantId runnerId .suspended

end RunnerEnrollmentService

def IdentityRequest.body : IdentityRequest → IdentityProgram IdentityReply
  | .createEnrollment scope input => RunnerEnrollmentService.createEnrollment P scope input
  | .issueCertificate scope enrollmentId token csrPem =>
    RunnerEnrollmentService.issueCertificate P scope enrollmentId token csrPem
  | .rotateCertificate scope tenantId runnerId csrPem =>
    RunnerEnrollmentService.rotateCertificate scope tenantId runnerId csrPem
  | .revokeRunner scope tenantId runnerId =>
    RunnerEnrollmentService.revokeRunner scope tenantId runnerId
  | .suspendRunner scope tenantId runnerId =>
    RunnerEnrollmentService.suspendRunner scope tenantId runnerId

/-- The requests that are under way on one database. -/
abbrev IdentityPool := Pool identitySignature IdentityFailure IdentityReply IdentityWorld
  IdentityRequest

/-- The requests and the database after a sequence of turns, from an empty database. -/
def IdentityPool.after (turns : List (Turn IdentityRequest)) : IdentityPool :=
  Pool.runs (handler P) (IdentityRequest.body P) ⟨.initial, []⟩ turns

end Qualigence.RunnerIdentity
