import Mathlib.Data.Int.Notation

/-! # Review tasks

A task of the human review queue is opened, claimed by a reviewer and resolved by that reviewer.
The commands name the version that they expect, and the functions here refuse the others.
-/

namespace Qualigence.Review

inductive ReviewTaskStatus where
  | open
  | claimed
  | resolved
  deriving DecidableEq

inductive ReviewTaskPriority where
  | low
  | medium
  | high
  | urgent
  deriving DecidableEq

inductive ReviewEvidenceCompleteness where
  | complete
  | limited
  | unavailable
  deriving DecidableEq

structure ReviewTask where
  taskId : String
  caseId : String
  status : ReviewTaskStatus
  reason : String
  priority : ReviewTaskPriority
  evidenceCompleteness : ReviewEvidenceCompleteness
  assigneeId : Option String
  version : ℤ
  deriving DecidableEq

structure ReviewTaskDraft where
  taskId : String
  caseId : String
  reason : String
  priority : ReviewTaskPriority
  evidenceCompleteness : ReviewEvidenceCompleteness

structure ClaimReviewTaskCommand where
  taskId : String
  expectedVersion : ℤ
  reviewerId : String
  idempotencyKey : String
  deriving DecidableEq

structure ResolveReviewTaskCommand where
  taskId : String
  expectedVersion : ℤ
  reviewerId : String
  disposition : String
  evidenceRefs : List String
  idempotencyKey : String
  deriving DecidableEq

structure ReviewResolution where
  taskId : String
  caseId : String
  reviewerId : String
  disposition : String
  evidenceRefs : List String
  idempotencyKey : String
  deriving DecidableEq

inductive ReviewTaskErrorCode where
  | reviewTaskVersionConflict
  | reviewTaskNotOpen
  | reviewTaskNotClaimed
  | reviewTaskNotAssignee
  | reviewTaskAlreadyResolved
  deriving DecidableEq

structure ReviewTaskError where
  code : ReviewTaskErrorCode
  message : String
  currentVersion : Option ℤ
  assigneeId : Option String
  deriving DecidableEq

def reviewTaskVersionConflict (currentVersion : ℤ) (assigneeId : Option String) :
    ReviewTaskError where
  code := .reviewTaskVersionConflict
  message := "ReviewTaskVersionConflict: The review task has advanced to version " ++
    toString currentVersion ++ "."
  currentVersion := some currentVersion
  assigneeId

def openReviewTask (draft : ReviewTaskDraft) : ReviewTask where
  taskId := draft.taskId
  caseId := draft.caseId
  status := .open
  reason := draft.reason
  priority := draft.priority
  evidenceCompleteness := draft.evidenceCompleteness
  assigneeId := none
  version := 1

def claimReviewTask (task : ReviewTask) (command : ClaimReviewTaskCommand) :
    Except ReviewTaskError ReviewTask :=
  if task.status ≠ .open then .error (reviewTaskVersionConflict task.version task.assigneeId)
  else if task.version ≠ command.expectedVersion then
    .error (reviewTaskVersionConflict task.version task.assigneeId)
  else .ok { task with
    status := .claimed
    assigneeId := some command.reviewerId
    version := task.version + 1 }

def resolveReviewTask (task : ReviewTask) (command : ResolveReviewTaskCommand) :
    Except ReviewTaskError (ReviewTask × ReviewResolution) :=
  if task.status = .resolved then
    .error {
      code := .reviewTaskAlreadyResolved
      message := "ReviewTaskAlreadyResolved: Review task " ++ task.taskId ++
        " is already resolved."
      currentVersion := some task.version
      assigneeId := none }
  else if task.status ≠ .claimed then
    .error {
      code := .reviewTaskNotClaimed
      message := "ReviewTaskNotClaimed: Review task " ++ task.taskId ++
        " must be claimed before it can be resolved."
      currentVersion := some task.version
      assigneeId := none }
  else if task.version ≠ command.expectedVersion then
    .error (reviewTaskVersionConflict task.version task.assigneeId)
  else if task.assigneeId ≠ some command.reviewerId then
    .error {
      code := .reviewTaskNotAssignee
      message := "ReviewTaskNotAssignee: Review task " ++ task.taskId ++
        " can only be resolved by its assignee."
      currentVersion := some task.version
      assigneeId := task.assigneeId }
  else .ok ({ task with status := .resolved, version := task.version + 1 }, {
    taskId := task.taskId
    caseId := task.caseId
    reviewerId := command.reviewerId
    disposition := command.disposition
    evidenceRefs := command.evidenceRefs
    idempotencyKey := command.idempotencyKey })

variable {task after : ReviewTask}

theorem claimReviewTask_eq_ok {command : ClaimReviewTaskCommand} :
    claimReviewTask task command = .ok after ↔
      task.status = .open ∧ task.version = command.expectedVersion ∧
      after = { task with
        status := .claimed, assigneeId := some command.reviewerId,
        version := task.version + 1 } := by
  unfold claimReviewTask
  split
  · next h => simp [h]
  · next h =>
    split
    · next hv => simp [hv]
    · next hv =>
      have hs := Decidable.of_not_not h
      have he := Decidable.of_not_not hv
      constructor
      · intro h
        cases h
        exact ⟨hs, he, rfl⟩
      · rintro ⟨-, -, rfl⟩
        rfl

theorem resolveReviewTask_eq_ok {command : ResolveReviewTaskCommand}
    {resolution : ReviewResolution} :
    resolveReviewTask task command = .ok (after, resolution) ↔
      task.status = .claimed ∧ task.version = command.expectedVersion ∧
      task.assigneeId = some command.reviewerId ∧
      after = { task with status := .resolved, version := task.version + 1 } ∧
      resolution = ⟨task.taskId, task.caseId, command.reviewerId, command.disposition,
        command.evidenceRefs, command.idempotencyKey⟩ := by
  unfold resolveReviewTask
  split
  · next h => simp [h]
  split
  · next h => simp [h]
  split
  · next h => simp [h]
  split
  · next h => simp [h]
  next _ hs hv ha =>
  have hs := Decidable.of_not_not hs
  have hv := Decidable.of_not_not hv
  have ha := Decidable.of_not_not ha
  constructor
  · intro h
    cases h
    exact ⟨hs, hv, ha, rfl, rfl⟩
  · rintro ⟨-, -, -, rfl, rfl⟩
    rfl

end Qualigence.Review
