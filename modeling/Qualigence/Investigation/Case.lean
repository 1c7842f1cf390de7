import Qualigence.Investigation.Budget
import Qualigence.Protocol.Value

/-! # Investigation cases

A case is one object with its ledger, its attempts and the transitions it has committed, by their
idempotency keys. A command is answered from the committed transitions, or it needs a status and
the current version. A command that consumes budget sends the case to a human when a dimension has
reached its ceiling, unless the attempt reproduced the finding.
-/

namespace Qualigence.Investigation

open Protocol

inductive InvestigationStatus where
  | candidate
  | investigating
  | reproducing
  | confirmed
  | refuted
  | flaky
  | needs_human
  | resolved
  | regression_verified
  deriving DecidableEq

structure BugEpisodeDraft where
  episodeId : String
  firstAttemptId : String
  confirmedAttemptIds : List String
  expectedClaims : List String
  observedFacts : List String
  minimalSteps : List JsValue
  environment : List (String × String)
  evidenceRefs : List String
  confidence : ℚ
  deriving DecidableEq

structure BugEpisode extends BugEpisodeDraft where
  caseId : String
  findingId : String
  deriving DecidableEq

structure HumanHandoffDraft where
  bestHypothesis : String
  lastDivergence : Option String
  keyEvidenceRefs : List String
  suggestedActions : List String
  limitationCodes : List String
  deriving DecidableEq

structure HumanHandoff extends HumanHandoffDraft where
  caseId : String
  attemptIds : List String
  deriving DecidableEq

/-- What a command is refused with, and the plain error of a reported amount. -/
inductive InvestigationError where
  | versionConflict (expectedVersion version : ℕ)
  | illegalTransition (status toStatus : InvestigationStatus)
  | confidenceBelowThreshold (confidence threshold : ℚ)
  | noReproducedAttempt
  | attemptUnknown (attemptId : String)
  | invalidAmount (dimension : BudgetDimension)
  deriving DecidableEq

structure InvestigationCommandBase where
  expectedVersion : ℕ
  idempotencyKey : String
  deriving DecidableEq

inductive InvestigationCommand where
  | startInvestigation (base : InvestigationCommandBase)
  | startReproduction (base : InvestigationCommandBase)
  | appendAttempt (base : InvestigationCommandBase) (attempt : ReproductionAttemptDraft)
  | confirm (base : InvestigationCommandBase) (episode : BugEpisodeDraft)
  | refute (base : InvestigationCommandBase) (reason : String)
  | markFlaky (base : InvestigationCommandBase) (reason : String)
  | escalateToHuman (base : InvestigationCommandBase) (handoff : HumanHandoffDraft)
  | resolve (base : InvestigationCommandBase) (disposition : String)
  | verifyRegression (base : InvestigationCommandBase)
  deriving DecidableEq

/-- What a transition carries besides its statuses. -/
structure TransitionExtras where
  appendedAttempt : Option ReproductionAttempt := none
  bugEpisode : Option BugEpisode := none
  handoff : Option HumanHandoff := none
  exhaustedDimensions : Option (List BudgetDimension) := none
  deriving DecidableEq

structure InvestigationTransition extends TransitionExtras where
  caseId : String
  fromStatus : InvestigationStatus
  toStatus : InvestigationStatus
  version : ℕ
  idempotencyKey : String
  planRevision : ℕ
  usage : InvestigationBudgetUsage ℚ
  deriving DecidableEq

structure InvestigationCase where
  caseId : String
  findingId : String
  projectId : String
  budget : InvestigationBudget
  usage : InvestigationBudgetUsage ℚ
  version : ℕ
  status : InvestigationStatus
  planRevision : ℕ
  bugEpisode : Option BugEpisode
  handoff : Option HumanHandoff
  attempts : List ReproductionAttempt
  transitions : List InvestigationTransition
  deriving DecidableEq

namespace InvestigationCase

def opened (caseId findingId projectId : String) (budget : InvestigationBudget) :
    InvestigationCase where
  caseId := caseId
  findingId := findingId
  projectId := projectId
  budget := budget
  usage := .zero
  version := 1
  status := .candidate
  planRevision := 0
  bugEpisode := none
  handoff := none
  attempts := []
  transitions := []

/-- What a command gives, with the case after it. -/
abbrev Outcome := Except InvestigationError InvestigationTransition × InvestigationCase

variable (c : InvestigationCase)

def evaluation : BudgetConsumeResult := InvestigationBudgetLedger.evaluate c.budget c.usage

def replay (base : InvestigationCommandBase) : Option InvestigationTransition :=
  c.transitions.find? fun t => t.idempotencyKey = base.idempotencyKey

def commit (base : InvestigationCommandBase) (toStatus : InvestigationStatus)
    (extras : TransitionExtras) : Outcome :=
  let transition : InvestigationTransition :=
    { toTransitionExtras := extras
      caseId := c.caseId
      fromStatus := c.status
      toStatus
      version := c.version + 1
      idempotencyKey := base.idempotencyKey
      planRevision := c.planRevision
      usage := c.usage }
  (.ok transition,
    { c with
      version := transition.version
      status := toStatus
      transitions := c.transitions ++ [transition] })

/-- A transition that was committed under the key, or the body in a legal status and version. -/
def transact (base : InvestigationCommandBase) (legal : List InvestigationStatus)
    (toStatus : InvestigationStatus) (body : Outcome) : Outcome :=
  match c.replay base with
  | some transition => (.ok transition, c)
  | none =>
    if c.status ∉ legal then (.error (.illegalTransition c.status toStatus), c)
    else if base.expectedVersion ≠ c.version then
      (.error (.versionConflict base.expectedVersion c.version), c)
    else body

def budgetCode (dimension : BudgetDimension) : String :=
  "budget_exhausted:" ++ match dimension with
    | .reproductionAttempts => "reproductionAttempts"
    | .planningRevisions => "planningRevisions"
    | .environmentRetries => "environmentRetries"
    | .wallClockMs => "wallClockMs"
    | .modelTokens => "modelTokens"
    | .environmentResets => "environmentResets"
    | .destructiveActions => "destructiveActions"

def buildHandoff (draft : HumanHandoffDraft) (exhaustedDimensions : List BudgetDimension) :
    HumanHandoff where
  toHumanHandoffDraft :=
    { draft with
      limitationCodes :=
        if draft.limitationCodes = [] then exhaustedDimensions.map budgetCode
        else draft.limitationCodes }
  caseId := c.caseId
  attemptIds := c.attempts.map fun attempt => attempt.attemptId

def commitNeedsHuman (base : InvestigationCommandBase) (exhaustedDimensions : List BudgetDimension)
    (attempt : Option ReproductionAttempt) : Outcome :=
  let handoff := c.buildHandoff
    { bestHypothesis := "Investigation exhausted its budget before a confident confirmation."
      lastDivergence := attempt.bind fun attempt => attempt.divergenceStepId
      keyEvidenceRefs := (attempt.map fun attempt => attempt.evidenceRefs).getD []
      suggestedActions := ["Assign a human reviewer to inspect the attempts."]
      limitationCodes := exhaustedDimensions.map budgetCode }
    exhaustedDimensions
  { c with handoff := some handoff }.commit base .needs_human
    { handoff := some handoff, exhaustedDimensions := some exhaustedDimensions,
      appendedAttempt := attempt }

def simpleTransition (base : InvestigationCommandBase)
    (requiredStatus toStatus : InvestigationStatus) : Outcome :=
  c.transact base [requiredStatus] toStatus (c.commit base toStatus {})

def startInvestigation (base : InvestigationCommandBase) : Outcome :=
  c.simpleTransition base .candidate .investigating

/-- The case whose plan is revised. -/
def revised : InvestigationCase :=
  { c with
    usage := InvestigationBudgetLedger.consumePlanRevision c.usage
    planRevision := c.planRevision + 1 }

def startReproduction (base : InvestigationCommandBase) : Outcome :=
  c.transact base [.investigating, .reproducing] .reproducing <|
    if c.revised.evaluation.exhausted then
      c.revised.commitNeedsHuman base c.revised.evaluation.exhaustedDimensions none
    else c.revised.commit base .reproducing {}

def stamp (draft : ReproductionAttemptDraft) : ReproductionAttempt where
  toReproductionAttemptDraft := draft
  caseId := c.caseId
  ordinal := c.attempts.length + 1
  planRevision := c.planRevision

/-- The case with an attempt, as far as the attempt is consumed. -/
def appended (draft : ReproductionAttemptDraft) : InvestigationCase :=
  { c with
    attempts := c.attempts ++ [c.stamp draft]
    usage := (InvestigationBudgetLedger.consumeAttempt c.usage (c.stamp draft)).2 }

/-- Exhaustion does not override an attempt that reproduced. -/
def appendAttempt (base : InvestigationCommandBase) (draft : ReproductionAttemptDraft) : Outcome :=
  c.transact base [.reproducing] .reproducing <|
    let appended := c.appended draft
    match (InvestigationBudgetLedger.consumeAttempt c.usage (c.stamp draft)).1 with
    | .error dimension => (.error (.invalidAmount dimension), appended)
    | .ok () =>
      if appended.evaluation.exhausted ∧ draft.outcome ≠ .reproduced then
        appended.commitNeedsHuman base appended.evaluation.exhaustedDimensions
          (some (c.stamp draft))
      else appended.commit base .reproducing { appendedAttempt := some (c.stamp draft) }

def confirm (base : InvestigationCommandBase) (draft : BugEpisodeDraft) : Outcome :=
  c.transact base [.reproducing] .confirmed <|
    let ids := draft.firstAttemptId :: draft.confirmedAttemptIds
    let reproduced := c.attempts.filter fun attempt => attempt.outcome = .reproduced
    let unknown := ids.find? fun id => c.attempts.all fun attempt => attempt.attemptId ≠ id
    if draft.confidence < c.budget.confirmationConfidenceThreshold then
      (.error (.confidenceBelowThreshold draft.confidence
        c.budget.confirmationConfidenceThreshold), c)
    else if !ids.any fun id => reproduced.any fun attempt => attempt.attemptId = id then
      (.error .noReproducedAttempt, c)
    else match unknown with
      | some id => (.error (.attemptUnknown id), c)
      | none =>
        let episode : BugEpisode := { draft with caseId := c.caseId, findingId := c.findingId }
        { c with bugEpisode := some episode }.commit base .confirmed
          { bugEpisode := some episode }

def refute (base : InvestigationCommandBase) : Outcome :=
  c.simpleTransition base .reproducing .refuted

def markFlaky (base : InvestigationCommandBase) : Outcome :=
  c.simpleTransition base .reproducing .flaky

def escalateToHuman (base : InvestigationCommandBase) (draft : HumanHandoffDraft) : Outcome :=
  c.transact base [.investigating, .reproducing] .needs_human <|
    let handoff := c.buildHandoff draft []
    { c with handoff := some handoff }.commit base .needs_human { handoff := some handoff }

def resolve (base : InvestigationCommandBase) : Outcome :=
  c.transact base [.confirmed, .refuted, .flaky, .needs_human] .resolved
    (c.commit base .resolved {})

def verifyRegression (base : InvestigationCommandBase) : Outcome :=
  c.simpleTransition base .resolved .regression_verified

def apply : InvestigationCommand → Outcome
  | .startInvestigation base => c.startInvestigation base
  | .startReproduction base => c.startReproduction base
  | .appendAttempt base attempt => c.appendAttempt base attempt
  | .confirm base episode => c.confirm base episode
  | .refute base _ => c.refute base
  | .markFlaky base _ => c.markFlaky base
  | .escalateToHuman base handoff => c.escalateToHuman base handoff
  | .resolve base _ => c.resolve base
  | .verifyRegression base => c.verifyRegression base

/-- The case after a sequence of commands, accepted or refused. -/
def runs (commands : List InvestigationCommand) : InvestigationCase :=
  commands.foldl (fun c command => (c.apply command).2) c

end InvestigationCase

end Qualigence.Investigation
