import Mathlib.Data.String.Basic
import Mathlib.Order.WithBot

/-! The enumerations of the task lifecycle and the status sets of its guards. -/

namespace Dvt.Tasks

inductive TaskExecutionStatus
  | pending
  | queued
  | assigned -- legacy rows only
  | started
  | running
  | success
  | error
  | cancelled
  | cancelRequested
  deriving DecidableEq, Repr

def TaskExecutionStatus.value : TaskExecutionStatus → String
  | .pending => "PENDING"
  | .queued => "QUEUED"
  | .assigned => "ASSIGNED"
  | .started => "STARTED"
  | .running => "RUNNING"
  | .success => "SUCCESS"
  | .error => "ERROR"
  | .cancelled => "CANCELLED"
  | .cancelRequested => "CANCEL_REQUESTED"

inductive TaskSource
  | ui | api | scheduler | node | mcp
  deriving DecidableEq, Repr

inductive PipelineExecutionMode
  | full | metadataOnly
  deriving DecidableEq, Repr

inductive TaskTerminationReason
  | userStop
  | userHardStop
  | oomGuard
  | workerLost
  | nestedWaitCapacityLost
  | supersededByNewerExecution
  deriving DecidableEq, Repr

namespace TaskTerminationReason

def value : TaskTerminationReason → String
  | .userStop => "USER_STOP"
  | .userHardStop => "USER_HARD_STOP"
  | .oomGuard => "OOM_GUARD"
  | .workerLost => "WORKER_LOST"
  | .nestedWaitCapacityLost => "NESTED_WAIT_CAPACITY_LOST"
  | .supersededByNewerExecution => "SUPERSEDED_BY_NEWER_EXECUTION"

def members : List TaskTerminationReason :=
  [.userStop, .userHardStop, .oomGuard, .workerLost, .nestedWaitCapacityLost,
    .supersededByNewerExecution]

def ofValue (text : String) : Option TaskTerminationReason :=
  members.find? fun reason => reason.value = text

end TaskTerminationReason

/-- A reason column: a member of the enumeration, or a historical text that is none. -/
inductive StoredReason
  | known (reason : TaskTerminationReason)
  | legacy (text : String) (unknown : TaskTerminationReason.ofValue text = none)
  deriving DecidableEq

def StoredReason.text : StoredReason → String
  | .known reason => reason.value
  | .legacy text _ => text

def rootExecutionSources : List TaskSource := [.ui, .api, .scheduler, .mcp]

def terminalStatuses : List TaskExecutionStatus := [.success, .error, .cancelled]

def supersedableStatuses : List TaskExecutionStatus := [.pending, .queued]

def claimableStatuses : List TaskExecutionStatus := [.queued, .assigned]

def workerOwnedActiveStatuses : List TaskExecutionStatus := [.started, .running]

def reconciliationTerminationReasons : List TaskTerminationReason :=
  [.userStop, .userHardStop, .oomGuard, .workerLost, .nestedWaitCapacityLost]

@[simp] lemma mem_rootExecutionSources {source : TaskSource} :
    source ∈ rootExecutionSources ↔ source ≠ .node := by
  cases source <;> decide

variable {status : TaskExecutionStatus}

@[simp] lemma mem_terminalStatuses :
    status ∈ terminalStatuses ↔ status = .success ∨ status = .error ∨ status = .cancelled := by
  simp [terminalStatuses]

@[simp] lemma mem_supersedableStatuses :
    status ∈ supersedableStatuses ↔ status = .pending ∨ status = .queued := by
  simp [supersedableStatuses]

@[simp] lemma mem_claimableStatuses :
    status ∈ claimableStatuses ↔ status = .queued ∨ status = .assigned := by
  simp [claimableStatuses]

end Dvt.Tasks
