import Dvt.Tasks.Lifecycle

/-! The record of a schedule run: how its attempts start, fail and finish. -/

namespace Dvt.Scheduling

open Tasks

inductive ProjectScheduleRunStatus
  | pending | starting | running | waitingRetry | success | error | cancelled
  deriving DecidableEq, Repr

inductive RetryBackoff
  | fixed | exponential
  deriving DecidableEq, Repr

/-- Instants are UTC microseconds. -/
structure ProjectScheduleRunRecord where
  id : String
  status : ProjectScheduleRunStatus := .pending
  attemptNumber : ℕ := 0
  attemptStartedAt : Option ℤ := none
  currentTaskId : Option String := none
  nextRetryAt : Option ℤ := none
  lastError : Option String := none
  finishedAt : Option ℤ := none
  updatedAt : ℤ
  maxRetries : ℕ := 0
  retryDelaySeconds : ℕ := 60
  retryBackoff : RetryBackoff := .fixed
  retryMaxDelaySeconds : ℕ := 3600
  mode : PipelineExecutionMode := .full
  forceExec : Bool := false
  deriving DecidableEq

def seconds (n : ℕ) : ℤ := 1000000 * n

def startLeaseSeconds : ℕ := 60

def finishRun (run : ProjectScheduleRunRecord) (status : ProjectScheduleRunStatus) (now : ℤ)
    (error : Option String) : ProjectScheduleRunRecord :=
  { run with status, finishedAt := some now, nextRetryAt := none, lastError := error, updatedAt := now }

def calculateRetryDelaySeconds (run : ProjectScheduleRunRecord) (failedAttemptNumber : ℕ) : ℕ :=
  match run.retryBackoff with
  | .fixed => run.retryDelaySeconds
  | .exponential =>
    min (run.retryDelaySeconds * 2 ^ (failedAttemptNumber - 1)) run.retryMaxDelaySeconds

def recordAttemptFailure (run : ProjectScheduleRunRecord) (now : ℤ) (error : String) :
    ProjectScheduleRunRecord :=
  let run := { run with lastError := some error }
  if run.attemptNumber ≤ run.maxRetries then
    { run with
      status := .waitingRetry
      nextRetryAt := some (now + seconds (calculateRetryDelaySeconds run run.attemptNumber))
      updatedAt := now }
  else finishRun run .error now (some error)

/-- The first of `values` that is set and not empty: `a or b or c`. -/
def firstText (values : List (Option String)) : Option String :=
  (values.find? fun value => value.any (· ≠ "")).join

def applyTaskResult (run : ProjectScheduleRunRecord) (task : TaskRecord) (now : ℤ) :
    Option ProjectScheduleRunRecord :=
  let reason := task.terminationReason.map StoredReason.text
  match task.status with
  | .success => some (finishRun run .success now none)
  | .error => some (recordAttemptFailure run now
      ((firstText [task.message, reason]).getD "Task execution failed"))
  | .cancelled => some (finishRun run .cancelled now ((firstText [reason]).or task.message))
  | _ => none

def retryDue (run : ProjectScheduleRunRecord) (now : ℤ) : Bool :=
  run.status = .pending ∨ run.status = .waitingRetry ∧ run.nextRetryAt.any (· ≤ now)

def startAttempt (run : ProjectScheduleRunRecord) (now : ℤ) : ProjectScheduleRunRecord :=
  { run with
    attemptNumber := run.attemptNumber + 1
    status := .starting
    attemptStartedAt := some now
    currentTaskId := none
    nextRetryAt := none
    updatedAt := now }

def leaseExpired (run : ProjectScheduleRunRecord) (now : ℤ) : Bool :=
  seconds startLeaseSeconds ≤ now - run.attemptStartedAt.getD run.updatedAt

def inspected (run : ProjectScheduleRunRecord) (now : ℤ) : Option TaskRecord → ProjectScheduleRunRecord
  | none =>
    if leaseExpired run now then
      recordAttemptFailure run now s!"Task start lease expired after {startLeaseSeconds} seconds"
    else run
  | some task =>
    let run := { run with currentTaskId := some task.taskId }
    (applyTaskResult run task now).getD { run with status := .running, updatedAt := now }

def markRunning (run : ProjectScheduleRunRecord) (taskId : String) (now : ℤ) :
    ProjectScheduleRunRecord :=
  { run with currentTaskId := some taskId, status := .running, updatedAt := now }

def failedAttempt (run : ProjectScheduleRunRecord) (task : Option TaskRecord) (error : String)
    (now : ℤ) : ProjectScheduleRunRecord :=
  match task with
  | none => recordAttemptFailure run now error
  | some task =>
    recordAttemptFailure { run with currentTaskId := some task.taskId } now
      ((firstText [task.message, task.terminationReason.map StoredReason.text]).getD error)

def ofAttempt (runId : String) (attemptNumber : ℕ) (task : TaskRecord) : Bool :=
  task.scheduleRunId = some runId ∧ task.scheduleAttempt = some (attemptNumber : ℤ)

def getAttemptTask (store : Store) (runId : String) (attemptNumber : ℕ) : Option TaskRecord :=
  store.tasks.rows.find? (ofAttempt runId attemptNumber)

end Dvt.Scheduling
