import Dvt.Library.Runs
import Dvt.Tasks.NestedWait
import Dvt.Tasks.Repository

/-! The passes of the supervisor, as programs of atomic commands over the shared state. -/

namespace Dvt.Orchestrator

open Library Tasks

inductive WorkerStatus
  | online | offline
  deriving DecidableEq, Repr

structure WorkerState where
  workerId : String
  lastReceivedAt : ℤ
  maxConcurrent : ℤ
  status : WorkerStatus
  activeTaskId : Option String := none
  isBusy : Bool := false
  availableSlots : ℤ := 0
  deriving DecidableEq

def WorkerState.isAlive (worker : WorkerState) (nowTs heartbeatTimeout : ℤ) : Bool :=
  worker.status = .online ∧ nowTs - worker.lastReceivedAt < heartbeatTimeout

def workerSchema : Schema WorkerState := .unique WorkerState.workerId

abbrev WorkerRegistry := Table workerSchema

namespace WorkerRegistry

def get (t : WorkerRegistry) (workerId : String) : Option WorkerState :=
  t.lookup WorkerState.workerId workerId

def markBusy (t : WorkerRegistry) (workerId taskId : String) : WorkerRegistry :=
  t.update (fun w => w.workerId = workerId)
    (fun w => { w with activeTaskId := some taskId, isBusy := true, availableSlots := 0 })
    fun _ => rfl

def markIdle (t : WorkerRegistry) (workerId taskId : String) : WorkerRegistry :=
  t.update (fun w => w.workerId = workerId ∧ (w.activeTaskId = none ∨ w.activeTaskId = some taskId))
    (fun w => { w with
      activeTaskId := none
      isBusy := false
      availableSlots := if w.status = .online then max w.maxConcurrent 0 else 0 })
    fun _ => rfl

def reapDeadWorkers (t : WorkerRegistry) (nowTs heartbeatTimeout : ℤ) : WorkerRegistry :=
  t.update (fun w => !w.isAlive nowTs heartbeatTimeout ∧ w.status ≠ .offline)
    (fun w => { w with
      status := .offline
      activeTaskId := none
      isBusy := false
      availableSlots := 0 })
    fun _ => rfl

def aliveIds (t : WorkerRegistry) (nowTs heartbeatTimeout : ℤ) : Finset String :=
  ((t.select fun w => w.isAlive nowTs heartbeatTimeout ∧ w.status = .online).map
    WorkerState.workerId).toFinset

end WorkerRegistry

structure TaskExecutionRecord where
  taskId : String
  workerId : String
  timestamp : ℤ
  deriving DecidableEq

def TaskExecutionRecord.isStale (record : TaskExecutionRecord) (nowTs staleTimeout : ℤ) : Bool :=
  nowTs - record.timestamp ≥ staleTimeout

def telemetrySchema : Schema TaskExecutionRecord := .unique TaskExecutionRecord.taskId

abbrev TaskExecutionRegistry := Table telemetrySchema

structure Config where
  heartbeatTimeout : ℤ
  telemetryStaleTimeout : ℤ
  taskStopGracePeriod : ℤ
  timestamp : DateTime → ℤ

inductive Grounds
  | closedTask (taskId : String)
  | lostWorker (workerId : String)
  | deadReservation (reservation : NestedWaitReservation)
  | workerOfFinalized (workerId : String)
  | orphanTelemetry (record : TaskExecutionRecord)
  deriving DecidableEq

inductive Command
  | reapDeadWorkers (nowTs : ℤ)
  | listActive (nowTs : ℤ)
  | checkActive (nowTs : ℤ) (task : TaskExecution)
  | finalizeLost (task : TaskExecution) (workerId : String)
  | listStale (nowTs : ℤ) (activeIds : List String)
  | forgetTelemetry (taskId : String)
  | markIdle (workerId taskId : String)
  | release (grounds : Grounds) (command : ReleaseCommand)
  | listCancelRequested
  | checkCancelRequested (nowTs : ℤ) (task : TaskExecution)
  | finalizeCancelRequested (task : TaskExecution) (status : TaskExecutionStatus)
      (message : Option String)
  | listReservations
  | inspectWorker (nowTs : ℤ) (reservation : NestedWaitReservation)
  | inspectParent (reservation : NestedWaitReservation) (workerAlive : Bool)
  | inspectChild (reservation : NestedWaitReservation) (dead : Bool)
  | rebalance (nowTs : ℤ)
  | hardStop (taskId : String)
  deriving DecidableEq

structure Shared where
  store : Store
  reservations : Reservations
  workers : WorkerRegistry
  telemetry : TaskExecutionRegistry
  clock : ℤ
  startedAt : ℤ
  hardStops : List String

def workerAlive (cfg : Config) (s : Shared) (nowTs : ℤ) (workerId : String) : Bool :=
  (s.workers.get workerId).any fun w => w.isAlive nowTs cfg.heartbeatTimeout

def isTerminal (task : Option TaskRecord) : Bool := task.any fun r => r.status ∈ terminalStatuses

def cleanupRuntime (taskId workerId : String) (byTask byWorker : Grounds) : List Command :=
  [.forgetTelemetry taskId, .markIdle workerId taskId, .release byTask (.byParent taskId),
    .release byTask (.scanChild taskId), .release byWorker (.scanWorker workerId)]

section

variable (cfg : Config) (now : DateTime) (s : Shared)

def checkActive (nowTs : ℤ) (task : TaskExecution) : Shared × List Command :=
  match task.assignedWorkerId with
  | none => (s, [])
  | some workerId =>
    if workerAlive cfg s nowTs workerId then
      ({ s with workers := s.workers.markBusy workerId task.taskId }, [])
    else if s.workers.get workerId = none ∧ nowTs - s.startedAt < cfg.heartbeatTimeout then (s, [])
    else (s, [.finalizeLost task workerId])

def finalizeLost (task : TaskExecution) (workerId : String) : Shared × List Command :=
  let (finalized, store) := finalizeReconciled now task.taskId (some (.known .workerLost))
    (some "Task worker heartbeat was lost") s.store
  ({ s with store },
    if finalized = none then []
    else cleanupRuntime task.taskId workerId (.closedTask task.taskId) (.lostWorker workerId))

def listStale (nowTs : ℤ) (activeIds : List String) : List Command :=
  ((s.telemetry.select fun record =>
      record.isStale nowTs cfg.telemetryStaleTimeout ∧ record.taskId ∉ activeIds).map fun record =>
    cleanupRuntime record.taskId record.workerId (.orphanTelemetry record)
      (.orphanTelemetry record)).flatten

def terminationMessage (reason : Option StoredReason) : Option String :=
  if terminalStatusForTerminationReason reason = .error then
    match reason with
    | some (.known .oomGuard) => some "Task terminated by OOM guard"
    | some (.known reason) => some ("Task terminated: " ++ reason.value)
    | some (.legacy text _) => some ("Task terminated: " ++ (if text = "" then "unknown reason" else text))
    | none => some "Task terminated: unknown reason"
  else none

def checkCancelRequested (nowTs : ℤ) (task : TaskExecution) : List Command :=
  let execution := s.telemetry.lookup TaskExecutionRecord.taskId task.taskId
  let stale := execution.any fun record => record.isStale nowTs cfg.telemetryStaleTimeout
  let age := nowTs - task.updatedAt.elim nowTs cfg.timestamp
  let userStop := task.terminationReason = some (.known .userStop)
  let delay := if userStop then cfg.taskStopGracePeriod else cfg.telemetryStaleTimeout
  if execution ≠ none ∧ !stale then []
  else if age < delay then []
  else [.finalizeCancelRequested task (terminalStatusForTerminationReason task.terminationReason)
    (terminationMessage task.terminationReason)]

def reconcilableReason : Option StoredReason → Bool
  | some (.known reason) => reason ∈ reconciliationTerminationReasons
  | _ => false

def finalizeCancelRequested (task : TaskExecution) (status : TaskExecutionStatus)
    (message : Option String) : Shared × List Command :=
  if reconcilableReason task.terminationReason then
    let (finalized, store) :=
      finalizeReconciled now task.taskId task.terminationReason message s.store
    ({ s with store },
      if finalized.any fun entity => entity.status = status then
        [.forgetTelemetry task.taskId] ++
          (task.assignedWorkerId.map fun w => Command.markIdle w task.taskId).toList ++
          [.release (.closedTask task.taskId) (.byParent task.taskId),
            .release (.closedTask task.taskId) (.scanChild task.taskId)] ++
          (task.assignedWorkerId.map fun w =>
            Command.release (.workerOfFinalized w) (.scanWorker w)).toList
      else [])
  else (s, [])

def rebalanceWaits (nowTs : ℤ) : List NestedWaitReservation × Reservations :=
  s.reservations.rebalance ((s.workers.aliveIds nowTs cfg.heartbeatTimeout).card - 1)

/-- `request_task_hard_stop`; a missing task raises and ends the pass. -/
def hardStop (taskId : String) : Shared × Option (List Command) :=
  let (task, store) := requestStop now taskId (.known .nestedWaitCapacityLost) true s.store
  match task with
  | none => ({ s with store }, none)
  | some task =>
    ({ s with store, hardStops := s.hardStops ++ [taskId] }, some (if task.status = .cancelled ∧
          task.terminationReason = some (.known .nestedWaitCapacityLost) then
        [.release (.closedTask taskId) (.scanChild taskId)] else []))

def exec : Command → Shared × Option (List Command)
  | .reapDeadWorkers nowTs =>
    ({ s with workers := s.workers.reapDeadWorkers nowTs cfg.heartbeatTimeout }, some [])
  | .listActive nowTs =>
    let active := listWorkerOwnedActive 1000 s.store
    (s, some (active.map (.checkActive nowTs) ++
      [.listStale nowTs (active.map TaskExecution.taskId)]))
  | .checkActive nowTs task =>
    let (s', next) := checkActive cfg s nowTs task
    (s', some next)
  | .finalizeLost task workerId =>
    let (s', next) := finalizeLost now s task workerId
    (s', some next)
  | .listStale nowTs activeIds => (s, some (listStale cfg s nowTs activeIds))
  | .forgetTelemetry taskId =>
    ({ s with telemetry := s.telemetry.delete fun record => record.taskId = taskId }, some [])
  | .markIdle workerId taskId => ({ s with workers := s.workers.markIdle workerId taskId }, some [])
  | .release grounds command =>
    let (reservations, next) := releaseStep s.reservations [command]
    ({ s with reservations }, some (next.map (.release grounds)))
  | .listCancelRequested =>
    (s, some ((listForReconciliation [.cancelRequested] 1000 s.store).map
      (.checkCancelRequested s.clock)))
  | .checkCancelRequested nowTs task => (s, some (checkCancelRequested cfg s nowTs task))
  | .finalizeCancelRequested task status message =>
    let (s', next) := finalizeCancelRequested now s task status message
    (s', some next)
  | .listReservations =>
    (s, some (s.reservations.rows.map (.inspectWorker s.clock) ++ [.rebalance s.clock]))
  | .inspectWorker nowTs reservation =>
    (s, some [.inspectParent reservation (workerAlive cfg s nowTs reservation.originWorkerId)])
  | .inspectParent reservation alive =>
    let parent := s.store.task? reservation.parentTaskId
    (s, some [.inspectChild reservation (!alive || parent = none || isTerminal parent)])
  | .inspectChild reservation dead =>
    let child := s.store.task? reservation.childTaskId
    (s, some (if dead || child = none || isTerminal child then
      [.release (.deadReservation reservation) (.byParent reservation.parentTaskId)] else []))
  | .rebalance nowTs =>
    let (evicted, reservations) := rebalanceWaits cfg s nowTs
    ({ s with reservations }, some (evicted.map fun r => .hardStop r.parentTaskId))
  | .hardStop taskId => hardStop now s taskId

end

structure Supervisor where
  shared : Shared
  passes : List (List Command)

inductive PassKind
  | staleExecutions | cancelRequested | nestedWaits
  deriving DecidableEq, Repr

inductive Event
  | advance (elapsed : ℕ)
  | start (pass : PassKind)
  | step (i : ℕ) (now : DateTime)

def passProgram (s : Shared) : PassKind → List Command
  | .staleExecutions => [.reapDeadWorkers s.clock, .listActive s.clock]
  | .cancelRequested => [.listCancelRequested]
  | .nestedWaits => [.listReservations]

def execHead (cfg : Config) (now : DateTime) (s : Shared) : List Command → Shared × List Command
  | [] => (s, [])
  | command :: rest =>
    let (s', next) := exec cfg now s command
    (s', next.elim [] (· ++ rest))

def Supervisor.step (cfg : Config) (σ : Supervisor) : Event → Supervisor
  | .advance elapsed => { σ with shared := { σ.shared with clock := σ.shared.clock + elapsed } }
  | .start pass => { σ with passes := σ.passes ++ [passProgram σ.shared pass] }
  | .step i now =>
    { shared := σ.passes[i]?.elim σ.shared fun pass => (execHead cfg now σ.shared pass).1
      passes := σ.passes.modify i fun pass => (execHead cfg now σ.shared pass).2 }

end Dvt.Orchestrator
